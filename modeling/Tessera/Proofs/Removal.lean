import Mathlib
import Tessera.Proofs.Nearness
import Tessera.Proofs.Optimal
import Tessera.Proofs.Slots
/-!
# What a colour contributes

A residual keeps the distances of an entry to the nearest and to the second nearest candidate of its palette. The
contribution of a slot adds up how far the two are apart, over the entries that are nearest to the slot. Nothing is removed
for this, and yet it is what removing the slot would cost: without its nearest candidate an entry goes to the second nearest,
and without any other one it stays (`Fit.leastSquare_eraseIdx`). Equal colours and equal distances make no difference to this.
-/

namespace Tessera

open Finset (sum_congr)

/-! ## Without one colour -/

namespace Fit

/-- A point is away from some colours just when it is none of them. -/
theorem leastSquare_pos_iff {colors : List (Rgb Rat)} (h : colors ≠ []) (x : Rgb Rat) :
    0 < leastSquare colors x ↔ x ∉ colors := by
  obtain ⟨c, hc, heq, hleast⟩ := exists_leastSquare h x
  rw [heq]
  constructor
  · intro hpos hx
    have hle := hleast x hx
    rw [Rgb.sqDist_self] at hle
    exact absurd hpos (not_lt.2 hle)
  · intro hx
    refine Rgb.sqDist_pos ?_
    rintro rfl
    exact hx hc

section

variable {x : Rgb Rat} {colors : List (Rgb Rat)} {i j : Fin colors.length} {rest : List (Fin colors.length)}
  (h : slotOrder x colors = i :: j :: rest)
include h

theorem leastSquare_of_slotOrder : leastSquare colors x = x.sqDist (colors.get i) := by
  refine leastSquare_eq (List.getElem_mem i.isLt) ?_
  intro d hd
  obtain ⟨k, hk, rfl⟩ := List.getElem_of_mem hd
  exact (isNearest_of_slotOrder h ⟨k, hk⟩).1

theorem nearer_of_slotOrder : Nearer x colors i j := by
  have hsorted : (slotOrder x colors).Pairwise (Nearer x colors) := pairwise_slotOrder
  rw [h] at hsorted
  exact (List.pairwise_cons.1 hsorted).1 j List.mem_cons_self

/-- No slot but the first is nearer than the second. -/
theorem second_le_of_slotOrder {k : Fin colors.length} (hk : k ≠ i) :
    x.sqDist (colors.get j) ≤ x.sqDist (colors.get k) := by
  have hsorted : (slotOrder x colors).Pairwise (Nearer x colors) := pairwise_slotOrder
  have hmem : k ∈ slotOrder x colors := mem_slotOrder k
  rw [h] at hsorted hmem
  rcases List.mem_cons.1 ((List.mem_cons.1 hmem).resolve_left hk) with rfl | hlater
  · exact le_rfl
  · exact ((List.pairwise_cons.1 (List.pairwise_cons.1 hsorted).2).1 k hlater).le

/-- Without the nearest colour the second is the nearest, and without another one the nearest is. -/
theorem leastSquare_eraseIdx (k : Nat) :
    leastSquare (colors.eraseIdx k) x = if k = i then x.sqDist (colors.get j) else x.sqDist (colors.get i) := by
  have hne : j ≠ i := by
    rintro rfl
    exact (nearer_of_slotOrder h).asymm (nearer_of_slotOrder h)
  by_cases hk : k = i
  · rw [if_pos hk]
    refine leastSquare_eq (List.mem_eraseIdx_iff_getElem.2 ⟨j, j.isLt, ?_, rfl⟩) ?_
    · rw [hk]
      exact Fin.val_ne_of_ne hne
    · intro d hd
      obtain ⟨l, hl, hlk, rfl⟩ := List.mem_eraseIdx_iff_getElem.1 hd
      refine second_le_of_slotOrder h (k := ⟨l, hl⟩) ?_
      rintro rfl
      exact hlk hk.symm
  · rw [if_neg hk]
    refine leastSquare_eq (List.mem_eraseIdx_iff_getElem.2 ⟨i, i.isLt, Ne.symm hk, rfl⟩) ?_
    intro d hd
    obtain ⟨l, hl, -, rfl⟩ := List.mem_eraseIdx_iff_getElem.1 hd
    exact (isNearest_of_slotOrder h ⟨l, hl⟩).1

end

end Fit

/-! ## Residuals in order of nearness -/

theorem Pick.ascending_map_sqDist (x : Rgb Rat) (colors : List (Rgb Rat)) :
    Pick.ascending (colors.map x.sqDist) = (Fit.slotOrder x colors).map fun i => (x.sqDist (colors.get i), i.val) := by
  rw [Pick.ascending, List.zipIdx_map]
  exact Fit.mergeSort_zipIdx (fun c => (x.sqDist c.1, c.2)) Prod.fst fun _ => rfl

/-- A colour uses a slot of a palette: the slot is a candidate, and the lowest one of those that are nearest to it. -/
def PaletteSet.Uses (s : PaletteSet Rat) (p k : Nat) (x : Rgb Rat) : Prop :=
  ∃ i : Fin (s.candidatesOf p).length, s.firstCandidate + i = k ∧ Fit.IsNearest x (s.candidatesOf p) i

namespace Residual

variable {s : PaletteSet Rat} {p : Nat}

/-- A residual stands for the two nearest candidates. -/
theorem ofEntry_of_slotOrder {e : Entry} {i j : Fin (s.candidatesOf p).length} {rest : List (Fin (s.candidatesOf p).length)}
    (h : Fit.slotOrder (Rgb.ofBytes e.color) (s.candidatesOf p) = i :: j :: rest) :
    ofEntry s p e = ⟨p, i.val + s.firstCandidate, (Rgb.ofBytes e.color).sqDist ((s.candidatesOf p).get i),
      some ((Rgb.ofBytes e.color).sqDist ((s.candidatesOf p).get j))⟩ := by
  rw [ofEntry, Pick.ascending_map_sqDist, h]
  rfl

theorem exists_slotOrder (x : Rgb Rat) (hp : p < s.size) (hc : 2 ≤ s.candidateCount) :
    ∃ i j rest, Fit.slotOrder x (s.candidatesOf p) = i :: j :: rest := by
  have hlength : (Fit.slotOrder x (s.candidatesOf p)).length = s.candidateCount := by
    rw [Fit.length_slotOrder, s.length_candidatesOf hp]
  cases horder : Fit.slotOrder x (s.candidatesOf p) with
  | nil =>
    rw [horder, List.length_nil] at hlength
    omega
  | cons i more =>
    cases more with
    | nil =>
      rw [horder, List.length_singleton] at hlength
      omega
    | cons j rest => exact ⟨i, j, rest, rfl⟩

@[simp] theorem ofEntry_palette (e : Entry) : (ofEntry s p e).palette = p := by
  rw [ofEntry]
  split <;> rfl

end Residual

namespace Reseed

variable {s : PaletteSet Rat} {p : Nat}

/-- What an entry adds to the contribution of a slot of its palette. -/
def share (s : PaletteSet Rat) (p k : Nat) (e : Entry) : Rat :=
  if (Residual.ofEntry s p e).slot = k then gap e (Residual.ofEntry s p e) else 0

/-- An entry adds to a candidate what it would cost more without this candidate. -/
theorem share_eq (e : Entry) {k : Nat} (hp : p < s.size) (hc : 2 ≤ s.candidateCount) (hk : s.firstCandidate ≤ k) :
    share s p k e = (e.count : Rat) *
      (Fit.leastSquare ((s.candidatesOf p).eraseIdx (k - s.firstCandidate)) (Rgb.ofBytes e.color) -
        Fit.leastSquare (s.candidatesOf p) (Rgb.ofBytes e.color)) := by
  obtain ⟨i, j, rest, h⟩ := Residual.exists_slotOrder (Rgb.ofBytes e.color) hp hc
  have hslot : i.val + s.firstCandidate = k ↔ k - s.firstCandidate = i.val := by omega
  rw [share, Residual.ofEntry_of_slotOrder h, Fit.leastSquare_eraseIdx h, Fit.leastSquare_of_slotOrder h]
  simp only [hslot, gap, Scalar.isFinite, Scalar.ofNat_rat, if_true]
  by_cases hown : k - s.firstCandidate = i.val
  · rw [if_pos hown, if_pos hown, mul_comm]
  · rw [if_neg hown, if_neg hown, sub_self, mul_zero]

theorem share_nonneg (e : Entry) (k : Nat) (hp : p < s.size) (hc : 2 ≤ s.candidateCount) : 0 ≤ share s p k e := by
  obtain ⟨i, j, rest, h⟩ := Residual.exists_slotOrder (Rgb.ofBytes e.color) hp hc
  rw [share]
  split
  · rw [Residual.ofEntry_of_slotOrder h]
    simp only [gap, Scalar.isFinite, Scalar.ofNat_rat, if_true]
    exact mul_nonneg (sub_nonneg.2 (Fit.nearer_of_slotOrder h).le) (Nat.cast_nonneg _)
  · exact le_rfl

/-- An entry adds nothing to a slot that it does not use. -/
theorem share_eq_zero (e : Entry) {k : Nat} (hp : p < s.size) (hc : 2 ≤ s.candidateCount)
    (hunused : ¬ s.Uses p k (Rgb.ofBytes e.color)) : share s p k e = 0 := by
  obtain ⟨i, j, rest, h⟩ := Residual.exists_slotOrder (Rgb.ofBytes e.color) hp hc
  rw [share, if_neg]
  rw [Residual.ofEntry_of_slotOrder h]
  intro hslot
  exact hunused ⟨i, by rw [← hslot, Nat.add_comm], Fit.isNearest_of_slotOrder h⟩

/-! ## Contributions tile by tile -/

theorem contribution_eq (ts : TileSet) (s : PaletteSet Rat) (assigned : List Nat) (p k : Nat) :
    contribution (residuals ts s assigned) p k =
      (ts.entries.map fun e => if assigned.getD e.tile 0 = p then share s p k e else 0).sum := by
  have hcontribution : ∀ rs : Residuals Rat, contribution rs p k =
      ((rs.filter fun x => x.2.palette == p && x.2.slot == k).map fun x => gap x.1 x.2).sum :=
    fun rs => Scalar.sum_rat _
  rw [hcontribution, sum_map_filter, residuals_eq, List.map_map]
  congr 1
  refine List.map_congr_left ?_
  intro e _
  simp only [Function.comp_apply, Residual.ofEntry_palette, share, Bool.and_eq_true, beq_iff_eq]
  by_cases hp : assigned.getD e.tile 0 = p
  · simp only [hp, true_and, if_true]
  · simp only [hp, false_and, if_false]

theorem assigned_of_mem_tileEntries {ts : TileSet} (hts : ts.InOrder) {n : Nat} (a : Fin ts.tiles.length → Fin n)
    {b : Fin ts.tiles.length} {e : Entry} (he : e ∈ TileSet.tileEntries (ts.tiles.get b)) :
    (List.ofFn fun b => (a b).val).getD e.tile 0 = a b := by
  have htile : e.tile = b := by
    rw [Fit.tile_of_mem_tileEntries he]
    exact hts b _ (List.getElem?_eq_getElem b.isLt)
  simp [htile]

/-- A contribution adds up over the tiles of its palette. -/
theorem contribution_eq_sum {ts : TileSet} (hts : ts.InOrder) (a : Fin ts.tiles.length → Fin s.size) (p : Fin s.size)
    (k : Nat) :
    contribution (residuals ts s (List.ofFn fun b => (a b).val)) p k =
      ∑ b with a b = p, ((TileSet.tileEntries (ts.tiles.get b)).map (share s p k)).sum := by
  rw [contribution_eq, TileSet.entries, List.map_flatMap, List.flatMap, List.sum_flatten, List.map_map,
    ← Fin.sum_univ_fun_getElem, Finset.sum_filter]
  refine sum_congr rfl ?_
  intro b _
  by_cases hb : a b = p
  · rw [if_pos hb]
    refine congrArg List.sum (List.map_congr_left ?_)
    intro e he
    rw [assigned_of_mem_tileEntries hts a he, hb, if_pos rfl]
  · rw [if_neg hb]
    refine List.sum_eq_zero ?_
    intro v hv
    obtain ⟨e, he, rfl⟩ := List.mem_map.1 hv
    rw [assigned_of_mem_tileEntries hts a he, if_neg (Fin.val_ne_of_ne hb)]

end Reseed

/-! ## Errors of the tiles of a palette -/

/-- The error of the tiles that are assigned to a palette, when they are shown with the nearest of some colours. -/
def TileSet.errorOf (ts : TileSet) {n : Nat} (a : Fin ts.tiles.length → Fin n) (p : Fin n) (colors : List (Rgb Rat)) : Rat :=
  ∑ b with a b = p, (ts.tiles.get b).errorWith colors

namespace Reseed

variable {s : PaletteSet Rat}

theorem sum_share_eq (tile : Tile) {p k : Nat} (hp : p < s.size) (hc : 2 ≤ s.candidateCount) (hk : s.firstCandidate ≤ k) :
    ((TileSet.tileEntries tile).map (share s p k)).sum =
      tile.errorWith ((s.candidatesOf p).eraseIdx (k - s.firstCandidate)) - tile.errorWith (s.candidatesOf p) := by
  rw [eq_sub_iff_add_eq, Tile.errorWith, Tile.errorWith, TileSet.tileEntries, List.map_map, ← List.sum_map_add]
  refine congrArg List.sum (List.map_congr_left ?_)
  intro e _
  rw [Function.comp_apply, share_eq _ hp hc hk]
  ring

section

variable {ts : TileSet} (hts : ts.InOrder) (hc : 2 ≤ s.candidateCount) (a : Fin ts.tiles.length → Fin s.size)
  (p : Fin s.size)
include hts hc

theorem contribution_eq_removal {k : Nat} (hk : s.firstCandidate ≤ k) :
    contribution (residuals ts s (List.ofFn fun b => (a b).val)) p k =
      ts.errorOf a p ((s.candidatesOf p).eraseIdx (k - s.firstCandidate)) - ts.errorOf a p (s.candidatesOf p) := by
  rw [contribution_eq_sum hts, TileSet.errorOf, TileSet.errorOf, ← Finset.sum_sub_distrib]
  refine sum_congr rfl ?_
  intro b _
  exact sum_share_eq (ts.tiles.get b) p.isLt hc hk

theorem contribution_nonneg (k : Nat) : 0 ≤ contribution (residuals ts s (List.ofFn fun b => (a b).val)) p k := by
  rw [contribution_eq_sum hts]
  refine Finset.sum_nonneg ?_
  intro b _
  refine List.sum_nonneg ?_
  intro v hv
  obtain ⟨e, -, rfl⟩ := List.mem_map.1 hv
  exact share_nonneg e k p.isLt hc

theorem contribution_eq_zero {k : Nat}
    (hunused : ∀ b, a b = p → ∀ e ∈ (ts.tiles.get b).histogram, ¬ s.Uses p k (Rgb.ofBytes e.1)) :
    contribution (residuals ts s (List.ofFn fun b => (a b).val)) p k = 0 := by
  rw [contribution_eq_sum hts]
  refine Finset.sum_eq_zero ?_
  intro b hb
  refine List.sum_eq_zero ?_
  intro v hv
  obtain ⟨x, hx, rfl⟩ := List.mem_map.1 hv
  obtain ⟨e, he, rfl⟩ := List.mem_map.1 hx
  exact share_eq_zero _ p.isLt hc (hunused b (Finset.mem_filter.1 hb).2 e he)

end

theorem contributions_eq_ofFn (s : PaletteSet Rat) (rs : Residuals Rat) :
    contributions s rs = List.ofFn fun p : Fin s.size => List.ofFn fun k : Fin s.slots => contribution rs p k := by
  apply List.ext_getElem
  · simp [contributions]
  · intro p h1 h2
    simp only [contributions, List.getElem_map, List.getElem_range, List.getElem_ofFn]
    apply List.ext_getElem
    · simp
    · intro k h3 h4
      simp

/-- **Contributions are removal costs.** Whatever palettes the tiles are assigned to, the contribution of a candidate slot is
the increase of the error of the tiles of its palette when this slot alone is removed from the candidates of the palette and
the tiles keep their palettes. No contribution is negative. A fixed slot contributes nothing, and neither does a slot that
no colour of the tiles of its palette uses. -/
theorem contributions_removal (c : Canvas) (s : PaletteSet Rat) (hc : 2 ≤ s.candidateCount)
    (a : Fin c.tiles.tiles.length → Fin s.size) :
    ∃ value : Fin s.size → Fin s.slots → Rat,
      contributions s (residuals c.tiles s (List.ofFn fun b => (a b).val)) = List.ofFn (fun p => List.ofFn (value p)) ∧
      ∀ (p : Fin s.size) (k : Fin s.slots),
        (s.firstCandidate ≤ k.val →
          value p k = c.tiles.errorOf a p ((s.candidatesOf p).eraseIdx (k - s.firstCandidate)) -
            c.tiles.errorOf a p (s.candidatesOf p)) ∧
        0 ≤ value p k ∧ (s.isFixed k → value p k = 0) ∧
        ((∀ b, a b = p → ∀ e ∈ (c.tiles.tiles.get b).histogram, ¬ s.Uses p k (Rgb.ofBytes e.1)) → value p k = 0) := by
  refine ⟨_, contributions_eq_ofFn s _, ?_⟩
  intro p k
  have hunused := contribution_eq_zero c.tiles_inOrder hc a p (k := k)
  refine ⟨contribution_eq_removal c.tiles_inOrder hc a p, contribution_nonneg c.tiles_inOrder hc a p k, ?_, hunused⟩
  intro hfixed
  apply hunused
  rintro b - e - ⟨i, hi, -⟩
  exact PaletteSet.not_isFixed_of_le (hi ▸ Nat.le_add_right _ _) hfixed

/-- Two palettes that keep their first slot for reserved pixels. The first one has a colour twice, and no tile needs the last
colour of the second. -/
def twinSet : PaletteSet Rat where
  zero := .transparentAlpha
  slots := 4
  palettes := [#v[⟨0, 0, 0⟩, ⟨60, 0, 40⟩, ⟨60, 0, 40⟩, ⟨0, 90, 40⟩], #v[⟨0, 0, 0⟩, ⟨150, 0, 40⟩, ⟨150, 90, 40⟩, ⟨0, 0, 0⟩]]

/-- The tiles of the small canvas, each with its own palette. -/
def ownPalettes (b : Fin Compose.smallCanvas.tiles.tiles.length) : Fin twinSet.size := ⟨b % 2, Nat.mod_lt _ Nat.two_pos⟩

/-- A colour that stands twice can be removed once at no cost. -/
theorem contributions_removal_twins :
    2 ≤ twinSet.candidateCount ∧
      contributions twinSet (residuals Compose.smallCanvas.tiles twinSet [0, 1]) = [[0, 0, 0, 16200], [0, 16200, 16200, 0]] ∧
      Compose.smallCanvas.tiles.errorOf ownPalettes (0 : Fin 2) [⟨60, 0, 40⟩, ⟨60, 0, 40⟩] -
        Compose.smallCanvas.tiles.errorOf ownPalettes (0 : Fin 2) (twinSet.candidatesOf 0) = 16200 := by
  have hassigned : (List.ofFn fun b => (ownPalettes b).val) = [0, 1] := by decide +kernel
  have hcontributions : contributions twinSet (residuals Compose.smallCanvas.tiles twinSet [0, 1]) =
      [[0, 0, 0, 16200], [0, 16200, 16200, 0]] := by cbv
  refine ⟨by decide, hcontributions, ?_⟩
  obtain ⟨value, hvalue, hremoval⟩ := contributions_removal Compose.smallCanvas twinSet (by decide) ownPalettes
  rw [hassigned, hcontributions] at hvalue
  have hlast : value (0 : Fin 2) (3 : Fin 4) = 16200 := by
    have hrow := congrArg (fun rows => (rows.getD 0 []).getD 3 0) hvalue
    exact hrow.symm
  rw [← hlast]
  exact ((hremoval (0 : Fin 2) (3 : Fin 4)).1 (by decide)).symm

end Reseed

end Tessera
