import Mathlib
import Tessera.Learn.Reseed
import Tessera.Proofs.Optimal
/-!
# Errors entry by entry

The error of a palette set is a sum over tiles of least costs. For any assignment of tiles to palettes it is at most the sum
over the entries of their costs under the palettes of their tiles (`Fit.sum_assign_le`), and for the assignment that the
set chooses it is that sum (`Fit.sum_assign_eq`). The residual of an entry names the slot that has this cost
(`Residual.ofEntry_nearest`).
-/

namespace Tessera

/-! ## Sums over entries -/

namespace Fit

variable (rule : Option (MixRule Rat)) {ts : TileSet} {s : PaletteSet Rat}

/-- The sum of the costs of all entries, when tiles are assigned to palettes. -/
def errorUnder (ts : TileSet) (s : PaletteSet Rat) (assigned : List Nat) : Rat :=
  (ts.entries.map fun e => entryCost rule (s.candidatesOf (assigned.getD e.tile 0)) e).sum

theorem errorUnder_eq (ts : TileSet) (s : PaletteSet Rat) (assigned : List Nat) :
    errorUnder rule ts s assigned =
      (ts.tiles.map fun tile => tileCost rule tile (s.candidatesOf (assigned.getD tile.index 0))).sum := by
  rw [errorUnder, TileSet.entries, List.map_flatMap, List.flatMap, List.sum_flatten, List.map_map]
  congr 1
  refine List.map_congr_left fun tile _ => ?_
  rw [Function.comp_apply, tileCost, Scalar.sum_rat]
  congr 1
  refine List.map_congr_left fun e he => ?_
  rw [tile_of_mem_tileEntries he]

theorem assign_eq (h : ts.InOrder) : assign rule ts s = ts.tiles.map fun tile => choose (tileRow rule s tile) := by
  rw [assign, errors_eq rule s h, List.map_map]
  rfl

/-- No assignment of tiles to palettes has a smaller error than the least costs of the tiles. -/
theorem sum_assign_le (h : ts.InOrder) {assigned : List Nat} (ha : ∀ t, assigned.getD t 0 < s.size) :
    ((assign rule ts s).map Prod.snd).sum ≤ errorUnder rule ts s assigned := by
  rw [assign_eq rule h, errorUnder_eq, List.map_map]
  exact List.sum_le_sum fun tile _ => (choose_tileRow rule tile (ha tile.index)).2

theorem assignment_getD (h : ts.InOrder) {tile : Tile} (ht : tile ∈ ts.tiles) :
    (assignment rule ts s).getD tile.index 0 = (choose (tileRow rule s tile)).1 := by
  obtain ⟨t, ht⟩ := List.mem_iff_getElem?.1 ht
  rw [h t tile ht, assignment, assign_eq rule h, List.getD_eq_getElem?_getD, List.getElem?_map, List.getElem?_map, ht]
  rfl

theorem assignment_getD_lt (ts : TileSet) (hs : 0 < s.size) (t : Nat) : (assignment rule ts s).getD t 0 < s.size := by
  rw [List.getD_eq_getElem?_getD]
  cases hp : (assignment rule ts s)[t]? with
  | none => exact hs
  | some p => exact assignment_lt rule ts hs p (List.mem_of_getElem? hp)

/-- The assignment that a set chooses has the least costs of the tiles as its error. -/
theorem sum_assign_eq (h : ts.InOrder) (hs : 0 < s.size) :
    ((assign rule ts s).map Prod.snd).sum = errorUnder rule ts s (assignment rule ts s) := by
  rw [errorUnder_eq, assign_eq rule h, List.map_map]
  congr 1
  refine List.map_congr_left fun tile ht => ?_
  rw [assignment_getD rule h ht]
  exact (choose_tileRow rule tile hs).1

theorem meanError_le_of_sum_le {t : PaletteSet Rat}
    (h : ((assign rule ts t).map Prod.snd).sum ≤ ((assign rule ts s).map Prod.snd).sum) :
    meanError rule ts t ≤ meanError rule ts s := by
  rw [meanError, meanError]
  split
  · exact le_rfl
  · rw [Scalar.pairwiseSum_rat, Scalar.pairwiseSum_rat, Scalar.ofNat_rat]
    exact div_le_div_of_nonneg_right h (Nat.cast_nonneg _)

end Fit

/-! ## Residuals -/

namespace Residual

variable {s : PaletteSet Rat} {p : Nat}

/-- The residual of an entry names a candidate of the palette, and the error of that candidate is the cost of the entry. -/
theorem ofEntry_nearest (e : Entry) (hp : p < s.size) (hc : 0 < s.candidateCount) :
    (ofEntry s p e).palette = p ∧ s.firstCandidate ≤ (ofEntry s p e).slot ∧ (ofEntry s p e).slot < s.slots ∧
      Compose.slotError s (Rgb.ofBytes e.color) p (ofEntry s p e).slot =
        Fit.cost none (s.candidatesOf p) (Rgb.ofBytes e.color) := by
  have hne : s.candidatesOf p ≠ [] := PaletteSet.candidatesOf_ne_nil hp hc
  obtain ⟨d, k, rest, horder, hk, hleast⟩ :=
    Pick.exists_ascending_cons ((s.candidatesOf p).map (Rgb.ofBytes e.color).sqDist) (by simpa using hne)
  rw [List.getElem?_map] at hk
  obtain ⟨c, hck, rfl⟩ := Option.map_eq_some_iff.1 hk
  have hlt : k < s.candidateCount := by
    rw [← s.length_candidatesOf hp]
    exact (List.getElem?_eq_some_iff.1 hck).1
  have hcount : s.candidateCount = s.slots - s.firstCandidate := rfl
  rw [ofEntry, horder]
  refine ⟨rfl, Nat.le_add_left _ _, by dsimp only; omega, ?_⟩
  dsimp only
  rw [Compose.slotError, Nat.add_comm, s.color?_candidate, hck, Option.getD_some, Rgb.sqDist_comm]
  obtain ⟨near, hnear, hcost⟩ := Fit.cost_none_eq (Rgb.ofBytes e.color) hne
  refine le_antisymm ?_ (Fit.cost_none_le _ (List.mem_of_getElem? hck))
  rw [hcost]
  exact hleast _ (List.mem_map_of_mem (List.mem_of_getElem? hnear))

end Residual

/-- Residuals are worked out entry by entry. -/
theorem Reseed.residuals_eq {α : Type} [Scalar α] (ts : TileSet) (s : PaletteSet α) (assigned : List Nat) :
    Reseed.residuals ts s assigned = ts.entries.map fun e => (e, Residual.ofEntry s (assigned.getD e.tile 0) e) := by
  have hall : Residual.all ts s assigned = ts.entries.map fun e => Residual.ofEntry s (assigned.getD e.tile 0) e :=
    Span.chunked_eq_map _ _ _ _ fun _ _ => rfl
  rw [Reseed.residuals, hall]
  simpa using List.zip_map' (f := id) (g := fun e => Residual.ofEntry s (assigned.getD e.tile 0) e) (l := ts.entries)

end Tessera
