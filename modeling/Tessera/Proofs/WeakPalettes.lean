import Mathlib
import Tessera.Proofs.WeakColors
/-!
# The weakest palette

What a palette contributes is judged from a table of errors, by the tiles that chose it and their second choices. This is
the cost of deleting the palette: its tiles go to the best palette that is left, and all others stay
(`Reseed.paletteContributions_eq`). Only the first of the cheapest palettes can be reseeded, and only from the tile that fits
worst outside it. The tile's colours fill the slots that the palette has for itself in turn, so a tile with few colours is
shown exactly afterwards (`Reseed.replace_weakest`).
-/

namespace Tessera

/-! ## Without one palette -/

namespace PaletteSet

/-- The palettes without one of them. -/
def without {α : Type} (s : PaletteSet α) (p : Nat) : PaletteSet α := { s with palettes := s.palettes.eraseIdx p }

variable (s : PaletteSet Rat) (ts : TileSet)

/-- The error of a tile with the palette that fits it best. -/
def leastError (tile : Tile) : Rat := ((List.range s.size).map (s.plainError tile)).min?.getD 0

/-- The error of all tiles, each with the palette that fits it best. -/
def totalError : Rat := (ts.tiles.map s.leastError).sum

/-- What the error of all tiles gains when a palette is deleted. -/
def removalCost (p : Nat) : Rat := (s.without p).totalError ts - s.totalError ts

/-- The mean over the palettes of what their deletion costs. -/
def meanRemovalCost : Rat := (∑ p ∈ Finset.range s.size, s.removalCost ts p) / s.size

variable {s}

theorem size_without {p : Nat} (hp : p < s.size) : (s.without p).size = s.size - 1 :=
  List.length_eraseIdx_of_lt hp

theorem leastError_eq (tile : Tile) (hs : 0 < s.size) (hc : 0 < s.candidateCount) :
    s.leastError tile = (Fit.choose (Fit.tileRow none s tile)).2 := by
  obtain ⟨hlt, heq, hleast, -⟩ := Fit.choose_first tile hs hc
  have hmin : ((List.range s.size).map (s.plainError tile)).min? = some (Fit.choose (Fit.tileRow none s tile)).2 := by
    rw [List.min?_eq_some_iff]
    constructor
    · rw [heq]
      exact List.mem_map_of_mem (List.mem_range.2 hlt)
    · intro e he
      obtain ⟨q, hq, rfl⟩ := List.mem_map.1 he
      exact hleast q (List.mem_range.1 hq)
  rw [leastError, hmin, Option.getD_some]

theorem tileRow_without (tile : Tile) (p : Nat) :
    Fit.tileRow none (s.without p) tile = (Fit.tileRow none s tile).eraseIdx p := by
  rw [Fit.tileRow, Fit.tileRow, candidates, candidates, List.eraseIdx_map, List.eraseIdx_map]
  rfl

end PaletteSet

namespace Reseed

/-- Without a choice that a row did not make, the row chooses as before; without the one it made, it chooses the best of the
others. -/
theorem choose_eraseIdx_sub {row : List Rat} {p : Nat} (hp : p < row.length) (hrow : 2 ≤ row.length) :
    (Fit.choose (row.eraseIdx p)).2 - (Fit.choose row).2 = if (Fit.choose row).1 = p then moveCost row p else 0 := by
  have hne : row.eraseIdx p ≠ [] := by
    rw [ne_eq, ← List.length_eq_zero_iff, List.length_eraseIdx_of_lt hp]
    omega
  obtain ⟨k, v, hk, hv⟩ := Pick.exists_least? hne
  have hchosen : Fit.choose (row.eraseIdx p) = (k, v) := by rw [Fit.choose, hk, Option.getD_some]
  have hown : row[(Fit.choose row).1]? = some (Fit.choose row).2 := (Fit.choose_le (List.getElem?_eq_getElem hp)).1
  rw [hchosen]
  by_cases hmade : (Fit.choose row).1 = p
  · rw [hmade] at hown
    rw [if_pos hmade, moveCost, hk]
    simp [Scalar.isFinite, List.getD, hown]
  · rw [if_neg hmade, sub_eq_zero]
    have hkept : (Fit.choose row).2 ∈ row.eraseIdx p := List.mem_eraseIdx_iff_getElem?.2 ⟨_, hmade, hown⟩
    obtain ⟨i, hi⟩ := List.mem_iff_getElem?.1 (List.mem_of_mem_eraseIdx (List.mem_of_getElem? hv))
    exact le_antisymm (Pick.least?_le hk _ hkept) (Fit.choose_le hi).2

variable {s : PaletteSet Rat} {ts : TileSet}

theorem leastError_without_sub (tile : Tile) {p : Nat} (hp : p < s.size) (hs : 2 ≤ s.size) (hc : 0 < s.candidateCount) :
    (s.without p).leastError tile - s.leastError tile =
      if (Fit.choose (Fit.tileRow none s tile)).1 = p then moveCost (Fit.tileRow none s tile) p else 0 := by
  have hlength : (Fit.tileRow none s tile).length = s.size := by rw [Fit.tileRow, List.length_map, s.length_candidates]
  have hsize : 0 < (s.without p).size := by
    rw [PaletteSet.size_without hp]
    omega
  rw [PaletteSet.leastError_eq tile hsize hc, PaletteSet.leastError_eq tile (by omega) hc, PaletteSet.tileRow_without]
  exact choose_eraseIdx_sub (by omega) (by omega)

theorem errors_zip_assignment (hts : ts.InOrder) :
    (Fit.errors none ts s).zip (Fit.assignment none ts s) =
      ts.tiles.map fun tile => (Fit.tileRow none s tile, (Fit.choose (Fit.tileRow none s tile)).1) := by
  rw [Fit.assignment, Fit.assign_eq none hts, Fit.errors_eq none s hts, List.map_map]
  exact List.zip_map'

/-- **Contributions of palettes are costs of deletion.** -/
theorem paletteContributions_eq (hts : ts.InOrder) (hs : 2 ≤ s.size) (hc : 0 < s.candidateCount) :
    paletteContributions s.size (Fit.errors none ts s) (Fit.assignment none ts s) =
      (List.range s.size).map (s.removalCost ts) := by
  have hsum : ∀ p, Scalar.sum ((((Fit.errors none ts s).zip (Fit.assignment none ts s)).filter fun x => x.2 == p).map
      fun x => moveCost x.1 x.2) = (ts.tiles.map fun tile =>
        if (Fit.choose (Fit.tileRow none s tile)).1 = p then moveCost (Fit.tileRow none s tile) p else 0).sum := by
    intro p
    rw [Scalar.sum_rat, sum_map_filter, errors_zip_assignment hts, List.map_map]
    congr 1
    refine List.map_congr_left ?_
    intro tile _
    simp only [Function.comp_apply, beq_iff_eq]
    split
    · rename_i hp
      rw [hp]
    · rfl
  refine List.map_congr_left ?_
  intro p hp
  rw [PaletteSet.removalCost, eq_sub_iff_add_eq, PaletteSet.totalError, PaletteSet.totalError]
  refine (congrArg (· + _) (hsum p)).trans ?_
  rw [← List.sum_map_add]
  congr 1
  refine List.map_congr_left ?_
  intro tile _
  rw [← leastError_without_sub tile (List.mem_range.1 hp) hs hc, sub_add_cancel]

/-! ## The palette and the tile -/

/-- The choice of a palette to reseed and of a tile to reseed it from. The palette is the first of those that cost least to
delete, and it costs less than a share of the mean. Of the tiles that did not choose it, none has a greater error than this
one. -/
structure Replaces (factor : Rat) (ts : TileSet) (s : PaletteSet Rat) (p : Nat) (b : Fin ts.tiles.length) : Prop where
  lt : p < s.size
  least : ∀ q < s.size, s.removalCost ts p ≤ s.removalCost ts q
  first : ∀ q < p, s.removalCost ts p < s.removalCost ts q
  mean_pos : 0 < s.meanRemovalCost ts
  below : s.removalCost ts p < factor * s.meanRemovalCost ts
  outside : (Fit.assignment none ts s).getD b 0 ≠ p
  error_pos : 0 < s.leastError (ts.tiles.get b)
  worst : ∀ i : Fin ts.tiles.length, (Fit.assignment none ts s).getD i 0 ≠ p →
    s.leastError (ts.tiles.get i) ≤ s.leastError (ts.tiles.get b)

theorem Replaces.palette_eq {factor : Rat} {p q : Nat} {b : Fin ts.tiles.length} (h : Replaces factor ts s p b)
    (hq : q < s.size) (hleast : ∀ r < s.size, s.removalCost ts q ≤ s.removalCost ts r)
    (hfirst : ∀ r < q, s.removalCost ts q < s.removalCost ts r) : p = q := by
  rcases lt_trichotomy p q with hlt | heq | hlt
  · exact absurd (hfirst p hlt) (not_lt.2 (h.least q hq))
  · exact heq
  · exact absurd (h.first q hlt) (not_lt.2 (hleast p h.lt))

/-- The error of a tile if it did not choose a palette, and a value below all errors if it did. -/
theorem outsideErrors_getElem? (hts : ts.InOrder) (hs : 0 < s.size) (hc : 0 < s.candidateCount) (p : Nat)
    (b : Fin ts.tiles.length) :
    (outsideErrors (Fit.errors none ts s) (Fit.assignment none ts s) p)[b.val]? =
      some (if (Fit.assignment none ts s).getD b 0 ≠ p then s.leastError (ts.tiles.get b) else -1) := by
  have htile : ts.tiles[b.val]? = some (ts.tiles.get b) := List.getElem?_eq_getElem b.isLt
  have hchosen : (Fit.assignment none ts s).getD b 0 = (Fit.choose (Fit.tileRow none s (ts.tiles.get b))).1 := by
    have hindex := Fit.assignment_getD (s := s) none hts (List.mem_of_getElem? htile)
    rwa [hts b _ htile] at hindex
  have hleast : (Fit.tileRow none s (ts.tiles.get b)).getD (Fit.choose (Fit.tileRow none s (ts.tiles.get b))).1 0 =
      s.leastError (ts.tiles.get b) := by
    have hfirst : (Fit.tileRow none s (ts.tiles.get b))[0]? = some (Fit.tileCost none (ts.tiles.get b) (s.candidatesOf 0)) :=
      Fit.tileRow_getElem? none _ hs
    rw [PaletteSet.leastError_eq _ hs hc, List.getD_eq_getElem?_getD, (Fit.choose_le hfirst).1, Option.getD_some]
  rw [hchosen, ← hleast]
  have houtside : outsideErrors (Fit.errors none ts s) (Fit.assignment none ts s) p =
      ((Fit.errors none ts s).zip (Fit.assignment none ts s)).map fun x => if x.2 != p then x.1.getD x.2 0 else -1 := rfl
  rw [houtside, errors_zip_assignment hts, List.map_map, List.getElem?_map, htile]
  simp

theorem length_outsideErrors (hts : ts.InOrder) (p : Nat) :
    (outsideErrors (Fit.errors none ts s) (Fit.assignment none ts s) p).length = ts.tiles.length := by
  rw [outsideErrors, List.length_map, errors_zip_assignment hts, List.length_map]

variable (ts) in
/-- The scan of the costs ends at the first of the cheapest palettes. -/
theorem exists_cheapest (hs : 0 < s.size) :
    ∃ p < s.size, Pick.least? ((List.range s.size).map (s.removalCost ts)) = some (p, s.removalCost ts p) ∧
      (∀ q < s.size, s.removalCost ts p ≤ s.removalCost ts q) ∧ ∀ q < p, s.removalCost ts p < s.removalCost ts q := by
  have hcost : ∀ q < s.size, ((List.range s.size).map (s.removalCost ts))[q]? = some (s.removalCost ts q) := by
    intro q hq
    simp [hq]
  have hne : (List.range s.size).map (s.removalCost ts) ≠ [] := by
    simp
    omega
  obtain ⟨p, v, hp, hv⟩ := Pick.exists_least? hne
  have hlt : p < s.size := by simpa using (List.getElem?_eq_some_iff.1 hv).1
  obtain rfl : s.removalCost ts p = v := Option.some.inj ((hcost p hlt).symm.trans hv)
  refine ⟨p, hlt, hp, ?_, ?_⟩
  · intro q hq
    exact Pick.least?_le hp _ (List.mem_of_getElem? (hcost q hq))
  · intro q hq
    exact Pick.least?_first hp q _ (hcost q (hq.trans hlt)) hq

/-- The scan of the errors outside a palette ends at a tile that fits worst there, or at a tile of the palette if there are
no others. -/
theorem greatest?_outsideErrors (hts : ts.InOrder) (hs : 0 < s.size) (hc : 0 < s.candidateCount) (p : Nat) (hne : ts.tiles ≠ []) :
    ∃ (b : Fin ts.tiles.length) (e : Rat),
      Pick.greatest? (outsideErrors (Fit.errors none ts s) (Fit.assignment none ts s) p) = some (b.val, e) ∧
      e = (if (Fit.assignment none ts s).getD b 0 ≠ p then s.leastError (ts.tiles.get b) else -1) ∧
      ∀ i : Fin ts.tiles.length, (Fit.assignment none ts s).getD i 0 ≠ p → s.leastError (ts.tiles.get i) ≤ e := by
  have hlength := length_outsideErrors (s := s) hts p
  have hsome : outsideErrors (Fit.errors none ts s) (Fit.assignment none ts s) p ≠ [] := by
    rw [ne_eq, ← List.length_eq_zero_iff, hlength, List.length_eq_zero_iff]
    exact hne
  have herrors := outsideErrors_getElem? hts hs hc p
  obtain ⟨t, e, ht, he⟩ := Pick.exists_greatest? hsome
  have htile : t < ts.tiles.length := hlength ▸ (List.getElem?_eq_some_iff.1 he).1
  refine ⟨⟨t, htile⟩, e, ht, Option.some.inj (he.symm.trans (herrors ⟨t, htile⟩)), ?_⟩
  intro i hi
  refine Pick.le_greatest? ht _ (List.mem_of_getElem? ((herrors i).trans ?_))
  rw [if_pos hi]

/-- A palette and a tile are chosen whenever there is such a choice. -/
theorem weakPalette_cases (factor : Rat) (hts : ts.InOrder) (hs : 2 ≤ s.size) (hc : 0 < s.candidateCount) :
    (∃ p b, weakPalette factor s.size (Fit.errors none ts s) (Fit.assignment none ts s) = some (p, b.val) ∧
        Replaces factor ts s p b) ∨
      weakPalette factor s.size (Fit.errors none ts s) (Fit.assignment none ts s) = none ∧
        ∀ p b, ¬ Replaces factor ts s p b := by
  have hmean : Scalar.mean ((List.range s.size).map (s.removalCost ts)) = s.meanRemovalCost ts := by
    rw [Scalar.mean, Scalar.pairwiseSum_rat, Scalar.ofNat_rat, List.length_map, List.length_range]
    rfl
  obtain ⟨p, hlt, hp, hleast, hfirst⟩ := exists_cheapest ts (show 0 < s.size by omega)
  simp only [weakPalette, paletteContributions_eq hts hs hc, hmean, hp]
  by_cases hweak : s.meanRemovalCost ts ≤ Scalar.ofNat 0 ∨ factor * s.meanRemovalCost ts ≤ s.removalCost ts p
  · rw [if_pos hweak]
    refine Or.inr ⟨rfl, ?_⟩
    intro q b h
    obtain rfl := h.palette_eq hlt hleast hfirst
    rcases hweak with hzero | hlarge
    · exact absurd h.mean_pos (not_lt.2 hzero)
    · exact absurd h.below (not_lt.2 hlarge)
  rw [if_neg hweak]
  obtain ⟨hpos, hbelow⟩ := not_or.1 hweak
  by_cases hnone : ts.tiles = []
  · have hempty : outsideErrors (Fit.errors none ts s) (Fit.assignment none ts s) p = [] := by
      rw [← List.length_eq_zero_iff, length_outsideErrors hts, hnone, List.length_nil]
    rw [hempty]
    refine Or.inr ⟨rfl, ?_⟩
    intro q b _
    exact absurd b.isLt (by simp [hnone])
  obtain ⟨b, e, hgreatest, hvalue, hworst⟩ := greatest?_outsideErrors hts (show 0 < s.size by omega) hc p hnone
  simp only [hgreatest]
  by_cases hfits : e ≤ Scalar.ofNat 0
  · rw [if_pos hfits]
    refine Or.inr ⟨rfl, ?_⟩
    intro q i h
    obtain rfl := h.palette_eq hlt hleast hfirst
    exact absurd h.error_pos (not_lt.2 ((hworst i h.outside).trans hfits))
  · rw [if_neg hfits]
    refine Or.inl ⟨p, b, rfl, ?_⟩
    have houtside : (Fit.assignment none ts s).getD b 0 ≠ p := by
      intro hown
      rw [if_neg (not_not.2 hown)] at hvalue
      exact hfits (hvalue.le.trans (by norm_num [Scalar.ofNat_rat]))
    rw [if_pos houtside] at hvalue
    exact ⟨hlt, hleast, hfirst, not_le.1 hpos, not_le.1 hbelow, houtside, hvalue ▸ not_le.1 hfits, hvalue ▸ hworst⟩

/-! ## Filling a palette -/

/-- The slots that a palette has for itself, with colours in turn. -/
def fills (s : PaletteSet Rat) (colors : List (Rgb UInt8)) : List (Nat × Rgb UInt8) :=
  (List.range (s.slots - s.firstFree)).map fun i => (s.firstFree + i, colors.getD (i % colors.length) ⟨0, 0, 0⟩)

variable {colors : List (Rgb UInt8)} (p : Nat)

theorem foldl_setColor_inTurn (hne : colors ≠ []) (places : List Nat) {t : PaletteSet Rat} (ht : t.zero = s.zero) :
    places.foldl (fun t i => (colors[i % colors.length]?).elim t fun c => t.setColor p (t.firstFree + i) (Rgb.ofBytes c)) t =
      t.writeBytes p (places.map fun i => (s.firstFree + i, colors.getD (i % colors.length) ⟨0, 0, 0⟩)) := by
  induction places generalizing t with
  | nil => rfl
  | cons i places ih =>
    have hfree : t.firstFree = s.firstFree := by rw [PaletteSet.firstFree, ht, PaletteSet.firstFree]
    have hlt : i % colors.length < colors.length := Nat.mod_lt _ (List.length_pos_iff.2 hne)
    have hturn : colors[i % colors.length]? = some (colors.getD (i % colors.length) ⟨0, 0, 0⟩) := by
      rw [List.getD_eq_getElem?_getD, List.getElem?_eq_getElem hlt, Option.getD_some]
    rw [List.foldl_cons, List.map_cons, PaletteSet.writeBytes_cons, hturn, Option.elim_some, hfree]
    refine ih ?_
    rw [PaletteSet.setColor, PaletteSet.changeColor_zero, ht]

theorem fillPalette_eq (hne : colors ≠ []) : fillPalette s p colors = s.writeBytes p (fills s colors) := by
  rw [fillPalette, fills, ← foldl_setColor_inTurn p hne _ rfl]
  congr 1
  funext t i
  cases colors[i % colors.length]? with
  | none => rfl
  | some c => rfl

theorem firstFree_le_of_mem_fills : ∀ w ∈ fills s colors, s.firstFree ≤ w.1 := by
  intro w hw
  obtain ⟨i, -, rfl⟩ := List.mem_map.1 hw
  exact Nat.le_add_right _ _

theorem nodup_fills_slots : ((fills s colors).map Prod.fst).Nodup := by
  rw [fills, List.map_map]
  exact List.nodup_range.map (add_right_injective s.firstFree)

variable {p}

theorem color?_fillPalette (hne : colors ≠ []) (hp : p < s.size) {i : Nat} (hi : i < s.slots - s.firstFree) :
    (fillPalette s p colors).color? p (s.firstFree + i) = (colors[i % colors.length]?).map Rgb.ofBytes := by
  have hlt : i % colors.length < colors.length := Nat.mod_lt _ (List.length_pos_iff.2 hne)
  have hmem : (s.firstFree + i, colors.getD (i % colors.length) ⟨0, 0, 0⟩) ∈ fills s colors :=
    List.mem_map_of_mem (List.mem_range.2 hi)
  obtain ⟨c, hc⟩ := s.exists_color? hp (show s.firstFree + i < s.slots by omega)
  rw [fillPalette_eq p hne, PaletteSet.color?_writeBytes_of_mem p firstFree_le_of_mem_fills nodup_fills_slots hmem, hc,
    List.getD_eq_getElem?_getD, List.getElem?_eq_getElem hlt]
  rfl

theorem color?_fillPalette_of_ne (hne : colors ≠ []) {q k : Nat} (h : q ≠ p ∨ k < s.firstFree) :
    (fillPalette s p colors).color? q k = s.color? q k := by
  rw [fillPalette_eq p hne, PaletteSet.color?_writeBytes_of_ne p firstFree_le_of_mem_fills]
  rintro rfl w hw rfl
  have hfree := firstFree_le_of_mem_fills w hw
  rcases h with hne | hlt
  · exact hne rfl
  · omega

theorem fillPalette_sameShape (hne : colors ≠ []) : s.SameShape (fillPalette s p colors) := by
  rw [fillPalette_eq p hne]
  exact s.writeBytes_sameShape p _

/-- With slots for all colours, each of them gets one. -/
theorem exists_slot_of_mem (hp : p < s.size) (hroom : colors.length ≤ s.slots - s.firstFree) {d : Rgb UInt8} (hd : d ∈ colors) :
    Rgb.ofBytes d ∈ (fillPalette s p colors).candidatesOf p := by
  obtain ⟨i, hi⟩ := List.mem_iff_getElem?.1 hd
  have hlt : i < colors.length := (List.getElem?_eq_some_iff.1 hi).1
  have hcolor := color?_fillPalette (List.ne_nil_of_mem hd) hp (show i < s.slots - s.firstFree by omega)
  rw [Nat.mod_eq_of_lt hlt, hi, Option.map_some] at hcolor
  refine PaletteSet.mem_candidatesOf_of_color? (k := s.firstFree + i) ?_ hcolor
  have hle := s.firstCandidate_le_firstFree
  rw [PaletteSet.firstCandidate, (fillPalette_sameShape (List.ne_nil_of_mem hd)).zero_eq, ← PaletteSet.firstCandidate]
  omega

end Reseed

/-- A tile has no error under a palette with all its colours. -/
theorem PaletteSet.plainError_eq_zero {s : PaletteSet Rat} {tile : Tile} {p : Nat} (hp : p < s.size)
    (hc : 0 < s.candidateCount) (h : ∀ e ∈ tile.histogram, Rgb.ofBytes e.1 ∈ s.candidatesOf p) : s.plainError tile p = 0 := by
  have hne : s.candidatesOf p ≠ [] := candidatesOf_ne_nil hp hc
  rw [plainError, Tile.errorWith]
  refine List.sum_eq_zero ?_
  intro v hv
  obtain ⟨e, he, rfl⟩ := List.mem_map.1 hv
  have hnotpos : ¬ 0 < Fit.leastSquare (s.candidatesOf p) (Rgb.ofBytes e.1) := by
    rw [Fit.leastSquare_pos_iff hne]
    exact not_not.2 (h e he)
  have hnonneg : 0 ≤ Fit.leastSquare (s.candidatesOf p) (Rgb.ofBytes e.1) := by
    obtain ⟨c, -, hleast, -⟩ := Fit.exists_leastSquare hne (Rgb.ofBytes e.1)
    rw [hleast]
    exact Rgb.sqDist_nonneg _ c
  rw [le_antisymm (not_lt.1 hnotpos) hnonneg, mul_zero]

namespace Reseed

/-- The colours of a tile with their numbers of pixels, the most frequent first. -/
def ranked (tile : Tile) : List (Rgb UInt8 × Nat) := tile.histogram.mergeSort fun a b => decide (b.2 ≤ a.2)

theorem ranked_perm (tile : Tile) : (ranked tile).Perm tile.histogram := List.mergeSort_perm _ _

theorem pairwise_ranked (tile : Tile) : (ranked tile).Pairwise fun a b => b.2 ≤ a.2 := by
  have hsorted : (ranked tile).Pairwise fun a b => decide (b.2 ≤ a.2) = true := by
    refine List.pairwise_mergeSort ?_ ?_ _
    · intro a b c hab hbc
      simp only [decide_eq_true_eq] at hab hbc ⊢
      omega
    · intro a b
      simp only [Bool.or_eq_true, decide_eq_true_eq]
      omega
  exact hsorted.imp fun h => by simpa using h

theorem byFrequency_eq (tile : Tile) : byFrequency tile = (ranked tile).map Prod.fst := rfl

theorem length_byFrequency (tile : Tile) : (byFrequency tile).length = tile.histogram.length := by
  rw [byFrequency_eq, List.length_map, (ranked_perm tile).length_eq]

/-- A palette filled from a tile shows the tile exactly if there are slots for all its colours. -/
theorem plainError_fillPalette {s : PaletteSet Rat} {tile : Tile} {p : Nat} (hp : p < s.size) (hc : 0 < s.candidateCount)
    (hne : byFrequency tile ≠ []) (hroom : tile.histogram.length ≤ s.slots - s.firstFree) :
    (fillPalette s p (byFrequency tile)).plainError tile p = 0 := by
  have hshape : s.SameShape (fillPalette s p (byFrequency tile)) := fillPalette_sameShape hne
  refine PaletteSet.plainError_eq_zero (hshape.size_eq.symm ▸ hp) (hshape.candidateCount_eq.symm ▸ hc) ?_
  intro e he
  refine exists_slot_of_mem hp ((length_byFrequency tile).le.trans hroom) ?_
  rw [byFrequency_eq]
  exact List.mem_map_of_mem ((ranked_perm tile).mem_iff.2 he)

/-! ## Replacing -/

theorem reseedColors_palettes (factor : Rat) (ts : TileSet) (assigned : List Nat) (x : Changed Rat) :
    (reseedColors factor ts assigned x).counts.palettes = x.counts.palettes := by
  obtain ⟨seed, -, heq⟩ := reseedColors_eq factor ts assigned x
  rw [counts_reseeded heq]

/-- A tile with an error has colours. -/
theorem histogram_ne_nil {s : PaletteSet Rat} {tile : Tile} (h : 0 < s.leastError tile) (hs : 0 < s.size)
    (hc : 0 < s.candidateCount) : tile.histogram ≠ [] := by
  intro hnil
  obtain ⟨-, heq, -, -⟩ := Fit.choose_first tile hs hc
  rw [PaletteSet.leastError_eq tile hs hc, heq, PaletteSet.plainError, Tile.errorWith, hnil] at h
  exact lt_irrefl _ h

theorem replace_eq {ts : TileSet} {x : Changed Rat} (rule : ReseedRule Rat) (hentries : ts.entries ≠ []) (hs : 2 ≤ x.set.size) :
    replace rule ts x = reseedWeakest rule.paletteFactor ts (Fit.errors none ts x.set) (Fit.assignment none ts x.set)
      (reseedColors rule.colorFactor ts (Fit.assignment none ts x.set) x) := by
  have hassigned : Fit.assignment none ts x.set = (Fit.errors none ts x.set).map fun row => (Fit.choose row).1 := by
    rw [Fit.assignment, Fit.assign, List.map_map]
    rfl
  rw [replace, if_neg (by simpa using hentries), hassigned]
  exact if_pos (by omega)

/-- **Only the cheapest palette is reseeded, from the tile that fits worst.** Judged by the palettes as they were before
any colour was reseeded: if there is a palette to replace and a tile for it, exactly one palette is reseeded, and otherwise
none. The palette then holds the colours of the tile in all slots that it has for itself, the most frequent first and in turn,
and everything else is as reseeding the colours left it. A tile with no more colours than there are such slots has no error
under the palette afterwards. -/
theorem replace_weakest (c : Canvas) (x : Changed Rat) (rule : ReseedRule Rat) (hentries : c.tiles.entries ≠ [])
    (hs : 2 ≤ x.set.size) (hc : 0 < x.set.candidateCount) :
    let y := reseedColors rule.colorFactor c.tiles (Fit.assignment none c.tiles x.set) x
    let z := replace rule c.tiles x
    (z = y ∧ z.counts.palettes = x.counts.palettes ∧ ∀ p b, ¬ Replaces rule.paletteFactor c.tiles x.set p b) ∨
    (z.counts.palettes = x.counts.palettes + 1 ∧ ∃ p b, Replaces rule.paletteFactor c.tiles x.set p b ∧
      (∃ order : List (Rgb UInt8 × Nat), order.Perm (c.tiles.tiles.get b).histogram ∧
        (order.Pairwise fun e f => f.2 ≤ e.2) ∧
        ∀ i < x.set.slots - x.set.firstFree, z.set.color? p (x.set.firstFree + i) =
          (order[i % order.length]?).map fun e => Rgb.ofBytes e.1) ∧
      (∀ q k, q ≠ p ∨ k < x.set.firstFree → z.set.color? q k = y.set.color? q k) ∧
      ((c.tiles.tiles.get b).histogram.length ≤ x.set.slots - x.set.firstFree →
        z.set.plainError (c.tiles.tiles.get b) p = 0)) := by
  intro y z
  have hz : z = reseedWeakest rule.paletteFactor c.tiles (Fit.errors none c.tiles x.set) (Fit.assignment none c.tiles x.set) y :=
    replace_eq rule hentries hs
  have hcount : y.counts.palettes = x.counts.palettes := reseedColors_palettes _ _ _ x
  have hshape : x.set.SameShape y.set := reseedColors_induct (fun _ _ _ _ h => h.changeColor _ _ _) (.refl _) _ c.tiles _
  rw [reseedWeakest, hshape.size_eq] at hz
  rcases weakPalette_cases rule.paletteFactor c.tiles_inOrder hs hc with ⟨p, b, hchosen, hreplaces⟩ | ⟨hnone, hreplaces⟩
  · have htile : c.tiles.tiles[b.val]? = some (c.tiles.tiles.get b) := List.getElem?_eq_getElem b.isLt
    rw [hchosen] at hz
    simp only [htile] at hz
    have hne : byFrequency (c.tiles.tiles.get b) ≠ [] := by
      rw [← List.length_pos_iff, length_byFrequency, List.length_pos_iff]
      exact histogram_ne_nil hreplaces.error_pos (by omega) hc
    have hp : p < y.set.size := hshape.size_eq.symm ▸ hreplaces.lt
    have hfree : x.set.firstFree = y.set.firstFree := by rw [PaletteSet.firstFree, PaletteSet.firstFree, hshape.zero_eq]
    rw [hz, hfree, ← hshape.slots_eq]
    refine Or.inr ⟨congrArg (· + 1) hcount, p, b, hreplaces,
      ⟨ranked (c.tiles.tiles.get b), ranked_perm _, pairwise_ranked _, ?_⟩, fun q k => color?_fillPalette_of_ne hne, ?_⟩
    · intro i hi
      rw [color?_fillPalette hne hp hi, byFrequency_eq, List.length_map, List.getElem?_map, Option.map_map]
      rfl
    · exact plainError_fillPalette hp (hshape.candidateCount_eq.symm ▸ hc) hne
  · rw [hnone] at hz
    exact Or.inl ⟨hz, hz ▸ hcount, hreplaces⟩

/-- Two palettes that keep their first slot for reserved pixels. No tile takes the second one. -/
def idleSet : PaletteSet Rat where
  zero := .transparentKey
  slots := 5
  palettes := [#v[⟨0, 0, 0⟩, ⟨60, 0, 40⟩, ⟨0, 90, 40⟩, ⟨60, 90, 40⟩, ⟨120, 0, 40⟩],
    #v[⟨0, 0, 0⟩, ⟨255, 0, 40⟩, ⟨255, 255, 40⟩, ⟨0, 255, 255⟩, ⟨255, 255, 255⟩]]

/-- Besides two weak colours of the first palette, the second palette is reseeded, and its tile then fits. -/
theorem replace_weakest_idle :
    let z := replace ⟨1 / 2, 1 / 2⟩ Compose.smallCanvas.tiles ⟨idleSet, ⟨0, 0⟩⟩
    Compose.smallCanvas.tiles.entries ≠ [] ∧ 2 ≤ idleSet.size ∧ 0 < idleSet.candidateCount ∧ z.counts = ⟨2, 1⟩ ∧
      ∃ p b, Replaces (1 / 2) Compose.smallCanvas.tiles idleSet p b ∧
        z.set.plainError (Compose.smallCanvas.tiles.tiles.get b) p = 0 := by
  have hentries : Compose.smallCanvas.tiles.entries ≠ [] := by
    rw [ne_eq, ← List.isEmpty_iff]
    decide +kernel
  have hcounts : (replace ⟨1 / 2, 1 / 2⟩ Compose.smallCanvas.tiles ⟨idleSet, ⟨0, 0⟩⟩).counts = ⟨2, 1⟩ := by cbv
  have hroom : ∀ b, (Compose.smallCanvas.tiles.tiles.get b).histogram.length ≤ idleSet.slots - idleSet.firstFree := by
    decide +kernel
  intro z
  refine ⟨hentries, by decide, by decide, hcounts, ?_⟩
  rcases replace_weakest Compose.smallCanvas ⟨idleSet, ⟨0, 0⟩⟩ ⟨1 / 2, 1 / 2⟩ hentries (by decide) (by decide) with
    ⟨-, hnone, -⟩ | ⟨-, p, b, hreplaces, -, -, hfits⟩
  · rw [hcounts] at hnone
    exact absurd hnone (by decide)
  · exact ⟨p, b, hreplaces, hfits (hroom b)⟩

end Reseed

end Tessera
