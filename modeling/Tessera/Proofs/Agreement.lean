import Mathlib
import Tessera.Proofs.Residuals
import Tessera.Proofs.Extraction
/-!
# One palette and one error

The palette of a tile is found in three ways: from the errors of all tiles, summed over spans of entries; for one tile
alone, with short cuts for one palette and for a tile without colours; and, once tiles have palettes, entry by entry. In
exact arithmetic they agree. The common value is the first palette with the least `PaletteSet.plainError`, a sum of least
distances that mentions none of the three (`Fit.choose_first`), and over all tiles the error is the least that any choice
of palettes and slots can have (`Fit.meanError_isLeast`).
-/

namespace Tessera

/-! ## The first of the least -/

namespace Pick

/-- A scan keeps what it has unless something is less, and everything that it passes on the way to its choice is more
than the choice. -/
theorem leastFrom_first {i place : Nat} (best : Rat) (xs : List Rat) (hplace : place < i) :
    (leastFrom i place best xs = (place, best) ∨ (leastFrom i place best xs).2 < best) ∧
      ∀ k x, xs[k]? = some x → i + k < (leastFrom i place best xs).1 → (leastFrom i place best xs).2 < x := by
  induction xs generalizing i place best with
  | nil => exact ⟨Or.inl rfl, by simp⟩
  | cons y xs ih =>
    simp only [leastFrom, isLess_rat, decide_eq_true_eq]
    by_cases hlt : y < best
    · obtain ⟨hstart, hpassed⟩ := ih y (show i < i + 1 by omega)
      rw [if_pos hlt]
      constructor
      · rcases hstart with heq | hless
        · exact Or.inr (heq ▸ hlt)
        · exact Or.inr (hless.trans hlt)
      · intro k x hk hpos
        cases k with
        | zero =>
          obtain rfl : y = x := by simpa using hk
          rcases hstart with heq | hless
          · rw [heq] at hpos
            omega
          · exact hless
        | succ k => exact hpassed k x (by simpa using hk) (by omega)
    · obtain ⟨hstart, hpassed⟩ := ih best (show place < i + 1 by omega)
      rw [if_neg hlt]
      refine ⟨hstart, ?_⟩
      intro k x hk hpos
      cases k with
      | zero =>
        obtain rfl : y = x := by simpa using hk
        rcases hstart with heq | hless
        · rw [heq] at hpos
          omega
        · exact hless.trans_le (not_lt.1 hlt)
      | succ k => exact hpassed k x (by simpa using hk) (by omega)

theorem least?_first {xs : List Rat} {k : Nat} {v : Rat} (h : least? xs = some (k, v)) :
    ∀ j x, xs[j]? = some x → j < k → v < x := by
  cases xs with
  | nil => cases h
  | cons y xs =>
    obtain ⟨rfl, rfl⟩ : (leastFrom 1 0 y xs).1 = k ∧ (leastFrom 1 0 y xs).2 = v := by
      simpa [least?, Prod.ext_iff] using h
    obtain ⟨hstart, hpassed⟩ := leastFrom_first y xs (Nat.zero_lt_one)
    intro j x hj hlt
    cases j with
    | zero =>
      obtain rfl : y = x := by simpa using hj
      rcases hstart with heq | hless
      · rw [heq] at hlt
        omega
      · exact hless
    | succ j => exact hpassed j x (by simpa using hj) (by omega)

end Pick

/-! ## Errors by least distances -/

namespace PaletteSet

variable (s : PaletteSet Rat)

/-- The sum over the colours of a tile of their least squared distances, each times its number of pixels. -/
def plainError (tile : Tile) (p : Nat) : Rat := tile.errorWith (s.candidatesOf p)

variable {s} {p : Nat}

theorem tileCost_eq_plainError (tile : Tile) (hp : p < s.size) (hc : 0 < s.candidateCount) :
    Fit.tileCost none tile (s.candidatesOf p) = s.plainError tile p := by
  rw [Fit.tileCost, Scalar.sum_rat, TileSet.tileEntries, List.map_map, plainError, Tile.errorWith]
  congr 1
  refine List.map_congr_left ?_
  rintro ⟨color, n⟩ -
  simp only [Function.comp_apply, Fit.entryCost, Scalar.ofNat_rat, Fit.cost_none_eq_leastSquare (candidatesOf_ne_nil hp hc),
    mul_comm]

end PaletteSet

/-! ## The palette of a tile -/

namespace Fit

variable {s : PaletteSet Rat}

/-- **The palette that a tile is assigned** is the first one with the least error, and its error is that one. -/
theorem choose_first (tile : Tile) (hs : 0 < s.size) (hc : 0 < s.candidateCount) :
    (choose (tileRow none s tile)).1 < s.size ∧
      (choose (tileRow none s tile)).2 = s.plainError tile (choose (tileRow none s tile)).1 ∧
      (∀ q < s.size, (choose (tileRow none s tile)).2 ≤ s.plainError tile q) ∧
      ∀ q < (choose (tileRow none s tile)).1, (choose (tileRow none s tile)).2 < s.plainError tile q := by
  have hrow : ∀ q < s.size, (tileRow none s tile)[q]? = some (s.plainError tile q) := by
    intro q hq
    rw [tileRow_getElem? none tile hq, PaletteSet.tileCost_eq_plainError tile hq hc]
  have hne : tileRow none s tile ≠ [] := List.ne_nil_of_mem (List.mem_of_getElem? (hrow 0 hs))
  have hlength : (tileRow none s tile).length = s.size := by rw [tileRow, List.length_map, s.length_candidates]
  obtain ⟨k, v, hk, hv⟩ := Pick.exists_least? hne
  have hlt : k < s.size := hlength ▸ (List.getElem?_eq_some_iff.1 hv).1
  simp only [choose, hk, Option.getD_some]
  refine ⟨hlt, ?_, ?_, ?_⟩
  · rw [hrow k hlt] at hv
    exact (Option.some.inj hv).symm
  · intro q hq
    exact Pick.least?_le hk _ (List.mem_of_getElem? (hrow q hq))
  · intro q hq
    exact Pick.least?_first hk q _ (hrow q (hq.trans hlt)) hq

theorem position_natCast {n t : Nat} (h : t < n) : position n t = .ok t := by
  have hnonneg : ¬ (t : Int) < 0 := by omega
  have hrange : (decide (0 ≤ (t : Int)) && decide ((t : Int) < n)) = true := by simp [h]
  rw [position, if_neg hnonneg, if_pos hrange]
  rfl

/-- The short cuts of a single tile lead to the palette that the errors of all tiles give. -/
theorem bestPalette_eq {ts : TileSet} {t : Nat} {tile : Tile} (h : ts.tiles[t]? = some tile) (hs : 0 < s.size) :
    bestPalette ts t s = (choose (tileRow none s tile)).1 := by
  have hchoose : (choose (tileRow none s tile)).1 = Pick.argLeast (s.candidates.map (tileError tile)) := by
    show _ = Pick.argLeast (tileRow none s tile)
    rw [choose, Pick.argLeast]
    cases Pick.least? (tileRow none s tile) <;> rfl
  have hlt : Pick.argLeast (s.candidates.map (tileError tile)) < s.size := by
    have hne : s.candidates.map (tileError tile) ≠ [] := by
      rw [← List.length_pos_iff, List.length_map, s.length_candidates]
      exact hs
    simpa [s.length_candidates] using Pick.argLeast_lt hne
  rw [hchoose, bestPalette, h]
  dsimp only
  by_cases hone : s.size = 1
  · rw [if_pos hone]
    omega
  rw [if_neg hone]
  by_cases hempty : tile.histogram.isEmpty = true
  · -- a tile without colours has no error under any palette
    have hzero : s.candidates.map (tileError tile) = List.replicate s.candidates.length (0 : Rat) := by
      rw [List.eq_replicate_iff]
      refine ⟨by simp, ?_⟩
      intro e he
      obtain ⟨cs, -, rfl⟩ := List.mem_map.1 he
      rw [tileError, tileCosts, TileSet.tileEntries, List.isEmpty_iff.1 hempty]
      rfl
    rw [if_pos hempty, hzero, Pick.argLeast_replicate (lt_irrefl 0)]
  · rw [if_neg hempty]

theorem bestPaletteAt_eq {ts : TileSet} {t : Nat} {tile : Tile} (h : ts.tiles[t]? = some tile) (hs : 0 < s.size) :
    bestPaletteAt ts t s = .ok (choose (tileRow none s tile)).1 := by
  have hposition := position_natCast (List.getElem?_eq_some_iff.1 h).1
  rw [← bestPalette_eq h hs, bestPaletteAt]
  by_cases hone : s.size = 1
  · rw [if_pos hone, bestPalette, if_pos hone]
    rfl
  rw [if_neg hone, hposition]
  simp only [bind, Except.bind, h, Option.map_some, Option.getD_some]
  by_cases hempty : tile.histogram.isEmpty = true
  · rw [if_pos hempty, bestPalette, if_neg hone, h]
    dsimp only
    rw [if_pos hempty]
    rfl
  · rw [if_neg hempty, if_neg (by omega)]
    rfl

end Fit

/-! ## The error of a tile, entry by entry -/

namespace Residual

variable {s : PaletteSet Rat}

/-- The error of a residual is the least distance to a candidate of its palette. -/
theorem error_ofEntry {p : Nat} (e : Entry) (hp : p < s.size) (hc : 0 < s.candidateCount) :
    (ofEntry s p e).error = Fit.leastSquare (s.candidatesOf p) (Rgb.ofBytes e.color) := by
  have hne : s.candidatesOf p ≠ [] := PaletteSet.candidatesOf_ne_nil hp hc
  obtain ⟨d, k, rest, horder, hk, hleast⟩ :=
    Pick.exists_ascending_cons ((s.candidatesOf p).map (Rgb.ofBytes e.color).sqDist) (by simpa using hne)
  have hmin : ((s.candidatesOf p).map (Rgb.ofBytes e.color).sqDist).min? = some d :=
    List.min?_eq_some_iff.2 ⟨List.mem_of_getElem? hk, hleast⟩
  rw [ofEntry, horder, Fit.leastSquare, hmin]
  rfl

theorem allBy_eq (chunk : Nat) (ts : TileSet) (assigned : List Nat) :
    allBy chunk ts s assigned = ts.entries.map fun e => ofEntry s (assigned.getD e.tile 0) e :=
  Span.chunked_eq_map _ _ _ _ fun _ _ => rfl

/-- The residuals of the entries of a tile add up to the error of the palette that the tile has. -/
theorem sum_allBy (chunk : Nat) {ts : TileSet} {assigned : List Nat} {t p : Nat} {tile : Tile} (hts : ts.InOrder)
    (ht : ts.tiles[t]? = some tile) (ha : assigned[t]? = some p) (hp : p < s.size) (hc : 0 < s.candidateCount) :
    (((ts.entries.zip (allBy chunk ts s assigned)).filter fun x => x.1.tile == t).map
      fun x => (x.1.count : Rat) * x.2.error).sum = s.plainError tile p := by
  have hown := Fit.filter_tileEntries ts.tiles 0 t fun k u hk => by rw [hts k u hk, Nat.zero_add]
  have hzip : ts.entries.zip (allBy chunk ts s assigned) =
      ts.entries.map fun e => (e, ofEntry s (assigned.getD e.tile 0) e) := by
    rw [allBy_eq]
    simpa using List.zip_map' (f := id) (g := fun e => ofEntry s (assigned.getD e.tile 0) e) (l := ts.entries)
  rw [Nat.zero_add, ht] at hown
  rw [hzip, List.filter_map, List.map_map]
  show (((ts.tiles.flatMap TileSet.tileEntries).filter fun e => e.tile == t).map _).sum = _
  rw [hown, Option.elim_some, TileSet.tileEntries, List.map_map, PaletteSet.plainError, Tile.errorWith]
  congr 1
  refine List.map_congr_left ?_
  rintro ⟨color, n⟩ -
  have hpalette : assigned.getD tile.index 0 = p := by
    rw [hts t tile ht, List.getD_eq_getElem?_getD, ha, Option.getD_some]
  simp only [Function.comp_apply, hpalette, error_ofEntry _ hp hc]

end Residual

/-! ## The error of all tiles -/

theorem TileSet.InOrder.entry_lt {ts : TileSet} (h : ts.InOrder) {e : Entry} (he : e ∈ ts.entries) :
    e.tile < ts.tiles.length := by
  obtain ⟨tile, htile, he⟩ := List.mem_flatMap.1 he
  obtain ⟨t, ht⟩ := List.mem_iff_getElem?.1 htile
  rw [Fit.tile_of_mem_tileEntries he, h t tile ht]
  exact (List.getElem?_eq_some_iff.1 ht).1

namespace Fit

/-- A palette for every tile, and a candidate slot for every entry. -/
structure Choice (s : PaletteSet Rat) where
  palette : Nat → Nat
  slot : Nat → Nat
  palette_lt : ∀ t, palette t < s.size
  slot_mem : ∀ i, s.firstCandidate ≤ slot i ∧ slot i < s.slots

/-- The squared distances of the entries of a set of tiles to the slots that they are given, each times its number of
pixels. -/
def Choice.error {s : PaletteSet Rat} (ts : TileSet) (k : Choice s) : Rat :=
  (ts.entries.zipIdx.map fun x =>
    (x.1.count : Rat) * Compose.slotError s (Rgb.ofBytes x.1.color) (k.palette x.1.tile) (k.slot x.2)).sum

variable {ts : TileSet} {s : PaletteSet Rat}

theorem errorUnder_eq_zipIdx (assigned : List Nat) :
    errorUnder none ts s assigned =
      (ts.entries.zipIdx.map fun x => (x.1.count : Rat) *
        cost none (s.candidatesOf (assigned.getD x.1.tile 0)) (Rgb.ofBytes x.1.color)).sum := by
  rw [errorUnder]
  conv_lhs => rw [← List.zipIdx_map_fst 0 ts.entries]
  rw [List.map_map]
  congr 1
  refine List.map_congr_left ?_
  rintro ⟨e, i⟩ -
  simp only [Function.comp_apply, entryCost, Scalar.ofNat_rat, mul_comm]

/-- No choice has a smaller error than its palettes have with the nearest slots. -/
theorem Choice.errorUnder_le (k : Choice s) (hts : ts.InOrder) :
    errorUnder none ts s ((List.range ts.tiles.length).map k.palette) ≤ k.error ts := by
  rw [errorUnder_eq_zipIdx, Choice.error]
  refine List.sum_le_sum ?_
  rintro ⟨e, i⟩ hmem
  have he : e ∈ ts.entries := List.fst_mem_of_mem_zipIdx hmem
  have hpalette : ((List.range ts.tiles.length).map k.palette).getD e.tile 0 = k.palette e.tile := by
    simp [List.getD_eq_getElem?_getD, List.getElem?_range (hts.entry_lt he)]
  rw [hpalette]
  exact mul_le_mul_of_nonneg_left (Compose.cost_le_slotError _ (k.palette_lt _) (k.slot_mem i)) (Nat.cast_nonneg _)

/-- The choice of the assigned palettes and of the slots that the residuals name. -/
def Choice.nearest (ts : TileSet) (s : PaletteSet Rat) (hs : 0 < s.size) (hc : 0 < s.candidateCount) : Choice s where
  palette t := (assignment none ts s).getD t 0
  slot i := (ts.entries[i]?).elim s.firstCandidate fun e =>
    (Residual.ofEntry s ((assignment none ts s).getD e.tile 0) e).slot
  palette_lt t := assignment_getD_lt none ts hs t
  slot_mem i := by
    cases ts.entries[i]? with
    | none => exact ⟨le_rfl, Nat.lt_of_sub_pos hc⟩
    | some e =>
      obtain ⟨-, hfirst, hslots, -⟩ := Residual.ofEntry_nearest e (assignment_getD_lt none ts hs e.tile) hc
      exact ⟨hfirst, hslots⟩

theorem Choice.error_nearest (hs : 0 < s.size) (hc : 0 < s.candidateCount) :
    (Choice.nearest ts s hs hc).error ts = errorUnder none ts s (assignment none ts s) := by
  rw [errorUnder_eq_zipIdx, Choice.error]
  congr 1
  refine List.map_congr_left ?_
  rintro ⟨e, i⟩ hmem
  have he : ts.entries[i]? = some e := List.mk_mem_zipIdx_iff_getElem?.1 hmem
  obtain ⟨-, -, -, hcost⟩ := Residual.ofEntry_nearest e (assignment_getD_lt none ts hs e.tile) hc
  simp only [Choice.nearest, he, Option.elim_some, hcost]

/-- The mean error times the number of pixels is the sum of the errors of the tiles, also when no pixel counts. -/
theorem meanError_mul_totalWeight (hts : ts.InOrder) (hs : 0 < s.size) :
    meanError none ts s * ts.totalWeight = errorUnder none ts s (assignment none ts s) := by
  rw [← sum_assign_eq none hts hs, meanError]
  by_cases hzero : ts.totalWeight = 0
  · have hcounts : ∀ e ∈ ts.entries, e.count = 0 := by
      intro e he
      have hsum := TileSet.totalWeight_eq_entries ts
      rw [hzero, total_eq_sum] at hsum
      exact List.sum_eq_zero_iff.1 hsum.symm _ (List.mem_map_of_mem he)
    rw [if_pos hzero, sum_assign_eq none hts hs, errorUnder, hzero, Nat.cast_zero, mul_zero]
    refine (List.sum_eq_zero ?_).symm
    intro x hx
    obtain ⟨e, he, rfl⟩ := List.mem_map.1 hx
    rw [entryCost, hcounts e he, Scalar.ofNat_rat, Nat.cast_zero, mul_zero]
  · rw [if_neg hzero, Scalar.pairwiseSum_rat, Scalar.ofNat_rat, div_mul_cancel₀]
    exact_mod_cast hzero

/-- **The mean error** times the number of pixels is the least error of all choices. -/
theorem meanError_isLeast (hts : ts.InOrder) (hs : 0 < s.size) (hc : 0 < s.candidateCount) :
    IsLeast (Set.range (Choice.error ts : Choice s → Rat)) (meanError none ts s * ts.totalWeight) := by
  rw [meanError_mul_totalWeight hts hs]
  constructor
  · exact ⟨Choice.nearest ts s hs hc, Choice.error_nearest hs hc⟩
  · rintro _ ⟨k, rfl⟩
    rw [← sum_assign_eq none hts hs]
    refine (sum_assign_le none hts ?_).trans (k.errorUnder_le hts)
    intro t
    rw [List.getD_eq_getElem?_getD, List.getElem?_map]
    cases (List.range ts.tiles.length)[t]? with
    | none => exact hs
    | some t => exact k.palette_lt t

/-- **All paths agree.** With any sizes of spans, a tile is assigned the palette that is best for it alone. This is the
first of those with the least sum of least distances, the error of the tile is that sum, and the residuals of its entries
add up to it. Over all tiles the error is the least of all choices of palettes and slots. -/
theorem paths_agree (c : Canvas) (s : PaletteSet Rat) (hs : 0 < s.size) (hc : 0 < s.candidateCount) (chunk chunk' : Nat) :
    (errorsBy chunk none c.tiles s).map choose = assign none c.tiles s ∧
      (∀ (t : Nat) (tile : Tile), c.tiles.tiles[t]? = some tile → ∃ p e, (assign none c.tiles s)[t]? = some (p, e) ∧
        bestPaletteAt c.tiles t s = .ok p ∧ p < s.size ∧ e = s.plainError tile p ∧
        (∀ q < s.size, e ≤ s.plainError tile q) ∧ (∀ q < p, e < s.plainError tile q) ∧
        e = (((c.tiles.entries.zip (Residual.allBy chunk' c.tiles s (assignment none c.tiles s))).filter
          fun x => x.1.tile == t).map fun x => (x.1.count : Rat) * x.2.error).sum) ∧
      IsLeast (Set.range (Choice.error c.tiles : Choice s → Rat)) (meanError none c.tiles s * c.tiles.totalWeight) := by
  have hts := c.tiles_inOrder
  refine ⟨?_, ?_, meanError_isLeast hts hs hc⟩
  · rw [errorsBy_eq chunk none s hts, assign, errors_eq none s hts]
  · intro t tile ht
    obtain ⟨hlt, herror, hleast, hfirst⟩ := choose_first tile hs hc
    have hassign : (assign none c.tiles s)[t]? = some (choose (tileRow none s tile)) := by
      rw [assign_eq none hts, List.getElem?_map, ht, Option.map_some]
    have hpalette : (assignment none c.tiles s)[t]? = some (choose (tileRow none s tile)).1 := by
      rw [assignment, List.getElem?_map, hassign, Option.map_some]
    refine ⟨(choose (tileRow none s tile)).1, (choose (tileRow none s tile)).2, hassign, bestPaletteAt_eq ht hs, hlt, herror,
      hleast, hfirst, ?_⟩
    rw [Residual.sum_allBy chunk' hts ht hpalette hlt hc, herror]

/-- Two palettes with a reserved slot, on a canvas with a reserved pixel; the first tile takes the second palette. -/
theorem paths_agree_small :
    0 < Compose.smallSet.size ∧ 0 < Compose.smallSet.candidateCount ∧
      assignment none Compose.smallCanvas.tiles Compose.smallSet = [1, 0] ∧
      bestPaletteAt Compose.smallCanvas.tiles (0 : Nat) Compose.smallSet = .ok 1 ∧
      IsLeast (Set.range (Choice.error Compose.smallCanvas.tiles : Choice Compose.smallSet → Rat))
        (meanError none Compose.smallCanvas.tiles Compose.smallSet * Compose.smallCanvas.tiles.totalWeight) := by
  obtain ⟨-, htiles, hleast⟩ := paths_agree Compose.smallCanvas Compose.smallSet (by decide) (by decide) 1 2
  have hassigned : assignment none Compose.smallCanvas.tiles Compose.smallSet = [1, 0] := by decide +kernel
  refine ⟨by decide, by decide, hassigned, ?_, hleast⟩
  obtain ⟨p, e, hp, hbest, -⟩ := htiles 0 _ (Canvas.tiles_getElem? ⟨0, by decide⟩)
  have hzero : (assignment none Compose.smallCanvas.tiles Compose.smallSet)[0]? = some p := by
    rw [assignment, List.getElem?_map, hp, Option.map_some]
  rw [hassigned] at hzero
  rw [hbest, ← Option.some.inj hzero]

end Fit

end Tessera
