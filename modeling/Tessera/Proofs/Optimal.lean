import Mathlib
import Tessera.Proofs.Exact
/-!
# Optimal compositions

Without dithering a composition is the best one for its palettes. A pixel is shown with the nearest candidate of a
palette, so no other candidate has a smaller error. A tile takes a palette whose cost is least, so no other palette has a
smaller sum over the tile. The error that a composition reports, taken pixel by pixel, is the one that the costs of the
tiles give (`error_plainColoring`, `plainColoring_le`).
-/

namespace Tessera

open Finset (sum_congr sum_le_sum)

/-! ## Candidates -/

theorem PaletteSet.color?_candidate {α : Type} (s : PaletteSet α) (p k : Nat) :
    s.color? p (s.firstCandidate + k) = (s.candidatesOf p)[k]? := by
  rw [color?, candidatesOf]
  cases s.palettes[p]? with
  | none => rfl
  | some v => simp

namespace Fit

/-- The least squared distance of a point to one of some colours, which need not be all candidates of a palette. -/
def leastSquare (colors : List (Rgb Rat)) (x : Rgb Rat) : Rat := (colors.map x.sqDist).min?.getD 0

theorem leastSquare_eq {colors : List (Rgb Rat)} {x c : Rgb Rat} (hc : c ∈ colors)
    (hleast : ∀ d ∈ colors, x.sqDist c ≤ x.sqDist d) : leastSquare colors x = x.sqDist c := by
  have hmin : (colors.map x.sqDist).min? = some (x.sqDist c) := by
    rw [List.min?_eq_some_iff]
    refine ⟨List.mem_map_of_mem hc, ?_⟩
    intro v hv
    obtain ⟨d, hd, rfl⟩ := List.mem_map.1 hv
    exact hleast d hd
  rw [leastSquare, hmin, Option.getD_some]

theorem exists_leastSquare {colors : List (Rgb Rat)} (h : colors ≠ []) (x : Rgb Rat) :
    ∃ c ∈ colors, leastSquare colors x = x.sqDist c ∧ ∀ d ∈ colors, x.sqDist c ≤ x.sqDist d := by
  have hne : (colors.map x.sqDist).min? ≠ none := by simpa [List.min?_eq_none_iff] using h
  obtain ⟨v, hv⟩ := Option.ne_none_iff_exists'.1 hne
  obtain ⟨hmem, hleast⟩ := List.min?_eq_some_iff.1 hv
  obtain ⟨c, hc, rfl⟩ := List.mem_map.1 hmem
  have hall : ∀ d ∈ colors, x.sqDist c ≤ x.sqDist d := fun d hd => hleast _ (List.mem_map_of_mem hd)
  exact ⟨c, hc, leastSquare_eq hc hall, hall⟩

theorem cost_none_eq_leastSquare {colors : List (Rgb Rat)} (h : colors ≠ []) (x : Rgb Rat) :
    cost none colors x = leastSquare colors x := by
  obtain ⟨c, hc, hcost⟩ := cost_none_eq x h
  rw [hcost]
  refine (leastSquare_eq (List.mem_of_getElem? hc) ?_).symm
  intro d hd
  rw [← hcost]
  exact cost_none_le x hd

end Fit

/-- The error of a tile that is shown with the nearest of some colours: over its entries, the number of pixels times the
least squared distance. -/
def Tile.errorWith (tile : Tile) (colors : List (Rgb Rat)) : Rat :=
  (tile.histogram.map fun e => (e.2 : Rat) * Fit.leastSquare colors (Rgb.ofBytes e.1)).sum

namespace Compose

variable {s : PaletteSet Rat} {p : Nat}

/-- No candidate has a smaller error than the cost of the palette. -/
theorem cost_le_slotError (point : Rgb Rat) {k : Nat} (hp : p < s.size) (hk : s.firstCandidate ≤ k ∧ k < s.slots) :
    Fit.cost none (s.candidatesOf p) point ≤ slotError s point p k := by
  obtain ⟨j, rfl⟩ := Nat.exists_eq_add_of_le hk.1
  have hj : j < (s.candidatesOf p).length := by
    rw [s.length_candidatesOf hp, PaletteSet.candidateCount]
    omega
  rw [slotError, s.color?_candidate, List.getElem?_eq_getElem hj, Option.getD_some, Rgb.sqDist_comm]
  exact Fit.cost_none_le _ (List.getElem_mem hj)

/-- The slot that a pixel takes has the cost of the palette as its error. -/
theorem slotError_plainIndex (x : Spot) (hp : p < s.size) (hc : 0 < s.candidateCount) :
    slotError s (Rgb.ofBytes x.color) p (plainIndex s p x) = Fit.cost none (s.candidatesOf p) (Rgb.ofBytes x.color) := by
  obtain ⟨color, hcolor, hcost⟩ := Fit.cost_none_eq (Rgb.ofBytes x.color) (PaletteSet.candidatesOf_ne_nil hp hc)
  rw [slotError, plainIndex, Nat.add_comm, s.color?_candidate, hcolor, hcost, Option.getD_some, Rgb.sqDist_comm]

end Compose

/-! ## Colorings -/

/-- A palette for every tile of a canvas, and for every pixel that is not reserved a candidate of its tile's palette. -/
structure Coloring (c : Canvas) (s : PaletteSet Rat) where
  palette : Fin c.tiling.tiles → Nat
  slot : Fin c.height → Fin c.width → Nat
  palette_lt : ∀ b, palette b < s.size
  slot_mem : ∀ y x, ¬ c.reserved.get y x → s.firstCandidate ≤ slot y x ∧ slot y x < s.slots

namespace Coloring

variable {c : Canvas} {s : PaletteSet Rat}

/-- The palette numbers of the tiles, row by row. -/
def paletteRows (k : Coloring c s) : List (List Nat) :=
  (Raster.ofFn fun (i : Fin c.tiling.rows) (j : Fin c.tiling.cols) =>
    k.palette ⟨i * c.tiling.cols + j, digit_pair_lt i.isLt j.isLt⟩).toLists

/-- The slot numbers of the pixels, row by row. -/
def slotRows (k : Coloring c s) : List (List Nat) := (Raster.ofFn k.slot).toLists

/-- The summed squared error over the pixels that are not reserved. -/
def error (k : Coloring c s) : Rat := Compose.imageError c s k.palette k.slot

/-- The error of the pixels of a tile. -/
def tileError (k : Coloring c s) (b : Fin c.tiling.tiles) : Rat :=
  c.sumTile (fun y x => Compose.slotError s (Rgb.ofBytes (c.work.get y x)) (k.palette b) (k.slot y x)) b

theorem error_eq (k : Coloring c s) : k.error = ∑ b, k.tileError b := by
  rw [error, Compose.imageError, c.sumKept_eq]
  refine sum_congr rfl fun b _ => sum_congr rfl fun o _ => ?_
  simp only [Tiling.blockIndex_source]

/-- A tile has no smaller error than the cost of the palette that it takes. -/
theorem tileCost_le (k : Coloring c s) (b : Fin c.tiling.tiles) :
    Fit.tileCost none (c.tileOf b) (s.candidatesOf (k.palette b)) ≤ k.tileError b := by
  rw [c.tileCost_eq]
  refine sum_le_sum fun o _ => ?_
  split
  · exact le_rfl
  · rename_i hr
    exact Compose.cost_le_slotError _ (k.palette_lt b) (k.slot_mem _ _ hr)

end Coloring

/-! ## The best palette of a tile -/

namespace Canvas

variable (c : Canvas) (rule : Option (MixRule Rat)) {s : PaletteSet Rat}

/-- The costs of a tile under all palettes. -/
def tileCosts (s : PaletteSet Rat) (b : Fin c.tiling.tiles) : List Rat :=
  (List.range s.size).map fun p => Fit.tileCost rule (c.tileOf b) (s.candidatesOf p)

theorem assign_eq : Fit.assign rule c.tiles s = List.ofFn fun b => Fit.choose (c.tileCosts rule s b) := by
  rw [Fit.assign, Fit.errors_eq rule s c.tiles_inOrder, c.tiles_eq, s.candidates_eq_map, List.map_ofFn, List.map_ofFn]
  simp only [Function.comp_def, List.map_map]
  rfl

theorem tileCosts_eq (b : Fin c.tiling.tiles) : c.tileCosts rule s b = Fit.tileRow rule s (c.tileOf b) := by
  rw [tileCosts, Fit.tileRow, s.candidates_eq_map, List.map_map]
  rfl

/-- The palette that a tile chooses has the least cost. -/
theorem choose_tileCosts (b : Fin c.tiling.tiles) {p : Nat} (hp : p < s.size) :
    (Fit.choose (c.tileCosts rule s b)).2 =
        Fit.tileCost rule (c.tileOf b) (s.candidatesOf (Fit.choose (c.tileCosts rule s b)).1) ∧
      (Fit.choose (c.tileCosts rule s b)).2 ≤ Fit.tileCost rule (c.tileOf b) (s.candidatesOf p) := by
  rw [c.tileCosts_eq]
  exact Fit.choose_tileRow rule (c.tileOf b) hp

end Canvas

namespace Compose

variable (d : Option (Dithering Rat)) (c : Canvas) {s : PaletteSet Rat}

theorem paletteOf_eq (b : Fin c.tiling.tiles) :
    paletteOf d c s b = (Fit.choose (c.tileCosts (d.map Dithering.rule) s.snapped b)).1 := by
  rw [paletteOf, Fit.assignment, c.assign_eq]
  simp

/-- The coloring that a composition without dithering shows. -/
def plainColoring (c : Canvas) (s : PaletteSet Rat) (h : 0 < s.size) (hc : 0 < s.candidateCount) :
    Coloring c s.snapped where
  palette b := paletteOf none c s b
  slot := numberAt none c s
  palette_lt b := by simpa using paletteOf_lt none c h b
  slot_mem y x hr := by
    rw [numberAt, number, if_neg (by exact hr)]
    exact pixelIndex_mem _ _ (by simpa using paletteOf_lt none c h _) (by simpa using hc)

/-- The tiles of a composition without dithering have the errors that their costs say. -/
theorem tileError_plainColoring (h : 0 < s.size) (hc : 0 < s.candidateCount) (b : Fin c.tiling.tiles) :
    (plainColoring c s h hc).tileError b = (Fit.choose (c.tileCosts none s.snapped b)).2 := by
  have hp : paletteOf none c s b < s.snapped.size := by simpa using paletteOf_lt none c h b
  have hchosen : paletteOf none c s b = (Fit.choose (c.tileCosts none s.snapped b)).1 := paletteOf_eq none c b
  rw [(c.choose_tileCosts none b hp).1, ← hchosen, c.tileCost_eq, Coloring.tileError, Canvas.sumTile, Canvas.sumTile]
  refine sum_congr rfl fun o _ => ?_
  simp only [plainColoring, numberAt, Tiling.blockIndex_source]
  split
  · rfl
  · rename_i hr
    rw [number, if_neg (by exact hr)]
    exact slotError_plainIndex _ hp (by simpa using hc)

/-- The error of a composition without dithering is the sum of the least costs of the tiles. -/
theorem error_plainColoring (h : 0 < s.size) (hc : 0 < s.candidateCount) :
    (plainColoring c s h hc).error = ((Fit.assign none c.tiles s.snapped).map Prod.snd).sum := by
  rw [Coloring.error_eq, c.assign_eq, List.map_ofFn, List.sum_ofFn]
  exact sum_congr rfl fun b _ => tileError_plainColoring c h hc b

/-- No coloring with the same palettes has a smaller error. -/
theorem plainColoring_le (h : 0 < s.size) (hc : 0 < s.candidateCount) (k : Coloring c s.snapped) :
    (plainColoring c s h hc).error ≤ k.error := by
  rw [Coloring.error_eq, Coloring.error_eq]
  refine sum_le_sum fun b _ => ?_
  calc (plainColoring c s h hc).tileError b
      = (Fit.choose (c.tileCosts none s.snapped b)).2 := tileError_plainColoring c h hc b
    _ ≤ Fit.tileCost none (c.tileOf b) (s.snapped.candidatesOf (k.palette b)) :=
        (c.choose_tileCosts none b (k.palette_lt b)).2
    _ ≤ k.tileError b := k.tileCost_le b

theorem compose_mse_none (cancelled : Bool) (h : 0 < s.size) (hc : 0 < s.candidateCount) :
    (compose none c c.tiles s cancelled).mse = Fit.meanError none c.tiles s.snapped := by
  rw [compose_mse none c cancelled h, Fit.meanError, Scalar.pairwiseSum_rat, ← error_plainColoring c h hc]
  rfl

end Compose

/-! ## Optimality -/

/-- The palettes of a composition as working palettes under a policy. -/
def Composition.working {α : Type} [Scalar α] (r : Composition α) (zero : ColorZero) : PaletteSet α := (r.stored zero).ofBytes

namespace Compose

/-- **Composing without dithering is optimal.** From palettes with a candidate a composition is made. The error that it
reports, taken over its pixels, is the one of its palettes, taken over the colours of the tiles. No other choice of a
palette for every tile and of a candidate of it for every pixel that is not reserved has a smaller error. -/
theorem compose_optimal (c : Canvas) (s : PaletteSet Rat) (cancelled : Bool) (h : 0 < s.size)
    (hc : 0 < s.candidateCount) :
    ∃ r, checked none c c.tiles s cancelled = .ok r ∧
      r.mse = Fit.meanError none c.tiles (r.working s.zero) ∧
      ∃ best : Coloring c (r.working s.zero),
        r.tilePalettes = best.paletteRows ∧ r.colorIndices = best.slotRows ∧
        ∀ other : Coloring c (r.working s.zero), best.error ≤ other.error := by
  refine ⟨compose none c c.tiles s cancelled, ?_, compose_mse_none c cancelled h hc, plainColoring c s h hc,
    compose_tilePalettes none c cancelled, compose_colorIndices none c cancelled h, plainColoring_le c h hc⟩
  rw [checked, if_neg (by omega)]
  rfl

/-- A canvas of two tiles, with a reserved pixel in the first. -/
def smallCanvas : Canvas where
  height := 2
  width := 4
  tiling := ⟨2, 2, 1, 2, by decide, by decide, rfl, rfl⟩
  work := .ofFn fun y x => ⟨UInt8.ofNat (60 * x), UInt8.ofNat (90 * y), 40⟩
  reserved := .ofFn fun y x => y.val == 0 && x.val == 0

/-- Two palettes that keep their first slot for reserved pixels; one colour lies between bytes. -/
def smallSet : PaletteSet Rat where
  zero := .transparentAlpha
  slots := 3
  palettes := [#v[⟨0, 0, 0⟩, ⟨170, 0, 40⟩, ⟨120, 90, 40⟩], #v[⟨0, 0, 0⟩, ⟨30, 0, 40⟩, ⟨30, 91 / 2, 0⟩]]

theorem compose_optimal_small :
    0 < smallSet.size ∧ 0 < smallSet.candidateCount ∧
      ∃ r, checked none smallCanvas smallCanvas.tiles smallSet false = .ok r ∧
        r.tilePalettes = [[1, 0]] ∧ r.colorIndices = [[0, 1, 1, 1], [2, 2, 2, 2]] ∧
        r.mse = Fit.meanError none smallCanvas.tiles (r.working .transparentAlpha) ∧
        ∃ best : Coloring smallCanvas (r.working .transparentAlpha),
          r.tilePalettes = best.paletteRows ∧ r.colorIndices = best.slotRows ∧
          ∀ other : Coloring smallCanvas (r.working .transparentAlpha), best.error ≤ other.error := by
  refine ⟨by decide, by decide, ?_⟩
  obtain ⟨r, hr, hbest⟩ := compose_optimal smallCanvas smallSet false (by decide) (by decide)
  obtain rfl : compose none smallCanvas smallCanvas.tiles smallSet false = r := Except.ok.inj hr
  exact ⟨_, hr, by decide +kernel, by decide +kernel, hbest⟩

end Compose

end Tessera
