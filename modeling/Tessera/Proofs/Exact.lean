import Mathlib
import Tessera.Proofs.Composition
import Tessera.Proofs.Sums
/-!
# Errors in exact arithmetic

With rational scalars the sums of the library are sums, and the cost of a colour is the least distance to a candidate. A
histogram counts every colour as often as it occurs, so the cost of a tile, taken over its distinct colours, is the sum
over its pixels (`Canvas.tileCost_eq`), and the error of a composition is the mean over the image (`compose_mse`).
-/

namespace Tessera

open Finset (sum_congr)

/-! ## Distances -/

theorem Scalar.ofNat_rat (n : Nat) : (Scalar.ofNat n : Rat) = n := rfl

theorem Rgb.sqDist_comm (c d : Rgb Rat) : c.sqDist d = d.sqDist c := by
  simp only [Rgb.sqDist]
  ring

theorem Rgb.sqDist_self (c : Rgb Rat) : c.sqDist c = 0 := by
  simp [Rgb.sqDist]

theorem Rgb.sqDist_nonneg (a b : Rgb Rat) : 0 ≤ a.sqDist b :=
  add_nonneg (add_nonneg (mul_self_nonneg _) (mul_self_nonneg _)) (mul_self_nonneg _)

theorem Rgb.sqDist_pos {a b : Rgb Rat} (h : a ≠ b) : 0 < a.sqDist b := by
  refine (Rgb.sqDist_nonneg a b).lt_of_ne' ?_
  intro hzero
  apply h
  obtain ⟨ar, ag, ab⟩ := a
  obtain ⟨br, bg, bb⟩ := b
  simp only [Rgb.sqDist] at hzero
  have hr := mul_self_nonneg (ar - br)
  have hg := mul_self_nonneg (ag - bg)
  have hb := mul_self_nonneg (ab - bb)
  have hrzero : (ar - br) * (ar - br) = 0 := by linarith
  have hgzero : (ag - bg) * (ag - bg) = 0 := by linarith
  have hbzero : (ab - bb) * (ab - bb) = 0 := by linarith
  rw [mul_self_eq_zero, sub_eq_zero] at hrzero hgzero hbzero
  rw [hrzero, hgzero, hbzero]

namespace Fit

variable (point : Rgb Rat) {cs : List (Rgb Rat)}

/-- No candidate is nearer than the cost says. -/
theorem cost_none_le {c : Rgb Rat} (h : c ∈ cs) : cost none cs point ≤ point.sqDist c := by
  have hne : cs.map point.sqDist ≠ [] := by simpa using List.ne_nil_of_mem h
  obtain ⟨k, v, hk, -⟩ := Pick.exists_least? hne
  simp only [cost, nearest?, hk, Option.elim_some]
  exact Pick.least?_le hk _ (List.mem_map_of_mem h)

/-- The nearest candidate is as far away as the cost says. -/
theorem cost_none_eq (h : cs ≠ []) :
    ∃ c, cs[Pick.argLeast (cs.map point.sqDist)]? = some c ∧ cost none cs point = point.sqDist c := by
  have hne : cs.map point.sqDist ≠ [] := by simpa using h
  obtain ⟨k, v, hk, hv⟩ := Pick.exists_least? hne
  rw [List.getElem?_map] at hv
  obtain ⟨c, hc, rfl⟩ := Option.map_eq_some_iff.1 hv
  exact ⟨c, by simpa [Pick.argLeast, hk] using hc, by simp [cost, nearest?, hk]⟩

/-- A choice takes the least error of its row. -/
theorem choose_le {row : List Rat} {k : Nat} {e : Rat} (h : row[k]? = some e) :
    row[(choose row).1]? = some (choose row).2 ∧ (choose row).2 ≤ e := by
  have hmem := List.mem_of_getElem? h
  obtain ⟨j, v, hj, hv⟩ := Pick.exists_least? (List.ne_nil_of_mem hmem)
  simp only [choose, hj, Option.getD_some]
  exact ⟨hv, Pick.least?_le hj e hmem⟩

end Fit

/-! ## The least cost of a tile -/

namespace Fit

variable (rule : Option (MixRule Rat)) {s : PaletteSet Rat}

/-- The costs of a tile under all palettes. -/
def tileRow (s : PaletteSet Rat) (tile : Tile) : List Rat := s.candidates.map (tileCost rule tile)

theorem tileRow_getElem? (tile : Tile) {p : Nat} (hp : p < s.size) :
    (tileRow rule s tile)[p]? = some (tileCost rule tile (s.candidatesOf p)) := by
  rw [tileRow, List.getElem?_map, s.candidates_getElem? hp, Option.map_some]

/-- The palette that a tile chooses has the least cost. -/
theorem choose_tileRow (tile : Tile) {p : Nat} (hp : p < s.size) :
    (choose (tileRow rule s tile)).2 = tileCost rule tile (s.candidatesOf (choose (tileRow rule s tile)).1) ∧
      (choose (tileRow rule s tile)).2 ≤ tileCost rule tile (s.candidatesOf p) := by
  obtain ⟨hchosen, hle⟩ := choose_le (tileRow_getElem? rule tile hp)
  obtain ⟨hlt, -⟩ := List.getElem?_eq_some_iff.1 hchosen
  rw [tileRow_getElem? rule tile (by simpa [tileRow, s.length_candidates] using hlt)] at hchosen
  exact ⟨(Option.some.inj hchosen).symm, hle⟩

end Fit

/-! ## Histograms -/

namespace Histogram

theorem sum_insert (f : Rgb UInt8 → Rat) (c : Rgb UInt8) (h : List (Rgb UInt8 × Nat)) :
    ((insert c h).map fun x => f x.1 * x.2).sum = f c + (h.map fun x => f x.1 * x.2).sum := by
  induction h with
  | nil => simp [insert]
  | cons x h ih =>
    obtain ⟨d, n⟩ := x
    rw [insert]
    split
    · rename_i hcd
      subst hcd
      simp only [List.map_cons, List.sum_cons, Nat.cast_add, Nat.cast_one]
      ring
    split
    · simp
    · simp only [List.map_cons, List.sum_cons, ih]
      ring

/-- A histogram weighs every colour by the number of times that it occurs. -/
theorem sum_ofList (f : Rgb UInt8 → Rat) (cs : List (Rgb UInt8)) :
    ((ofList cs).map fun x => f x.1 * x.2).sum = (cs.map f).sum := by
  induction cs with
  | nil => rfl
  | cons c cs ih => rw [ofList, List.foldr_cons, sum_insert, ← ofList, ih, List.map_cons, List.sum_cons]

theorem total_insert (c : Rgb UInt8) (h : List (Rgb UInt8 × Nat)) :
    total ((insert c h).map Prod.snd) = total (h.map Prod.snd) + 1 := by
  induction h with
  | nil => rfl
  | cons x h ih =>
    obtain ⟨d, n⟩ := x
    rw [insert]
    split
    · simp only [List.map_cons, total]; omega
    split
    · simp only [List.map_cons, total]; omega
    · simp only [List.map_cons, total, ih]; omega

theorem total_ofList (cs : List (Rgb UInt8)) : total ((ofList cs).map Prod.snd) = cs.length := by
  induction cs with
  | nil => rfl
  | cons c cs ih => rw [ofList, List.foldr_cons, total_insert, ← ofList, ih, List.length_cons]

end Histogram

theorem total_eq_sum (ns : List Nat) : total ns = ns.sum := by
  induction ns with
  | nil => rfl
  | cons n ns ih => rw [total, ih, List.sum_cons]

/-- A sum over the elements that pass a test. -/
theorem sum_map_filter {β : Type} (xs : List β) (p : β → Bool) (f : β → Rat) :
    ((xs.filter p).map f).sum = (xs.map fun x => if p x then f x else 0).sum := by
  induction xs with
  | nil => rfl
  | cons x xs ih =>
    rw [List.filter_cons]
    split <;> simp [*]

/-! ## Sums over the pixels of a canvas -/

namespace Canvas

variable (c : Canvas)

/-- The sum over the pixels that are not reserved. -/
def sumKept (f : Fin c.height → Fin c.width → Rat) : Rat :=
  ∑ y, ∑ x, if c.reserved.get y x then 0 else f y x

/-- The sum over the pixels of a tile that are not reserved. -/
def sumTile (f : Fin c.height → Fin c.width → Rat) (b : Fin c.tiling.tiles) : Rat :=
  ∑ o, if c.reserved.get (c.tiling.sourceRow b o) (c.tiling.sourceColumn b o) then 0
    else f (c.tiling.sourceRow b o) (c.tiling.sourceColumn b o)

/-- Tile by tile the pixels of the image are summed once. -/
theorem sumKept_eq (f : Fin c.height → Fin c.width → Rat) : c.sumKept f = ∑ b, c.sumTile f b := by
  simp only [sumKept, sumTile]
  rw [← Fintype.sum_prod_type', ← Fintype.sum_prod_type']
  exact (Equiv.sum_comp c.tiling.cells.symm
    fun cell => if c.reserved.get cell.1 cell.2 then 0 else f cell.1 cell.2).symm

/-- The cells of a tile, each with whether it is reserved. -/
def cellsOf (b : Fin c.tiling.tiles) : List (Rgb UInt8 × Bool) :=
  List.ofFn fun o => (c.work.get (c.tiling.sourceRow b o) (c.tiling.sourceColumn b o),
    c.reserved.get (c.tiling.sourceRow b o) (c.tiling.sourceColumn b o))

/-- The tile with a number. -/
def tileOf (b : Fin c.tiling.tiles) : Tile :=
  TileSet.makeTile c.tiling.cols c.tiling.tileWidth c.tiling.tileHeight b (c.cellsOf b)

theorem tiles_eq : c.tiles.tiles = List.ofFn c.tileOf := by
  simp only [tiles, TileSet.extract, TileSet.ofBlocks, Raster.toLists_eq]
  apply List.ext_getElem
  · simp
  intro b h1 h2
  simp [tileOf, cellsOf, Tiling.blocks]

theorem sum_kept (f : Rgb UInt8 → Rat) (b : Fin c.tiling.tiles) :
    ((TileSet.kept (c.cellsOf b)).map f).sum = c.sumTile (fun y x => f (c.work.get y x)) b := by
  have hfilter := sum_map_filter (c.cellsOf b) (fun cell => !cell.2) fun cell => f cell.1
  rw [cellsOf, List.map_ofFn, List.sum_ofFn] at hfilter
  rw [TileSet.kept, List.map_map]
  refine hfilter.trans (sum_congr rfl fun o _ => ?_)
  simp only [Function.comp_apply]
  cases c.reserved.get (c.tiling.sourceRow b o) (c.tiling.sourceColumn b o) <;> rfl

/-- **The cost of a tile.** Over distinct colours with their counts it is what it is over pixels. -/
theorem tileCost_eq (rule : Option (MixRule Rat)) (cs : List (Rgb Rat)) (b : Fin c.tiling.tiles) :
    Fit.tileCost rule (c.tileOf b) cs = c.sumTile (fun y x => Fit.cost rule cs (Rgb.ofBytes (c.work.get y x))) b := by
  rw [← c.sum_kept fun color => Fit.cost rule cs (Rgb.ofBytes color), ← Histogram.sum_ofList]
  rw [Fit.tileCost, Scalar.sum_rat, TileSet.tileEntries, List.map_map]
  rfl

theorem pixelCount_tileOf (b : Fin c.tiling.tiles) : ((c.tileOf b).pixelCount : Rat) = c.sumTile (fun _ _ => 1) b := by
  have h := c.sum_kept (fun _ => 1) b
  rw [← h, Tile.pixelCount, tileOf, TileSet.makeTile, Histogram.total_ofList]
  simp

/-- The pixels that count are those that are not reserved. -/
theorem totalWeight_eq : (c.tiles.totalWeight : Rat) = c.sumKept fun _ _ => 1 := by
  rw [TileSet.totalWeight, c.tiles_eq, total_eq_sum, List.map_ofFn, List.sum_ofFn, Nat.cast_sum, c.sumKept_eq]
  exact sum_congr rfl fun b _ => c.pixelCount_tileOf b

end Canvas

/-! ## Errors of compositions -/

namespace Compose

/-- The error of a colour that is shown with a slot of a palette. -/
def slotError (s : PaletteSet Rat) (point : Rgb Rat) (p k : Nat) : Rat :=
  ((s.color? p k).getD (Rgb.fill 0)).sqDist point

/-- The summed squared error of the pixels that are not reserved, when every tile takes a palette and every pixel a slot
of it. -/
def imageError (c : Canvas) (s : PaletteSet Rat) (palettes : Fin c.tiling.tiles → Nat)
    (numbers : Fin c.height → Fin c.width → Nat) : Rat :=
  c.sumKept fun y x =>
    slotError s (Rgb.ofBytes (c.work.get y x)) (palettes (c.tiling.blockIndex y x)) (numbers y x)

variable (d : Option (Dithering Rat)) (c : Canvas) {s : PaletteSet Rat} (cancelled : Bool)

/-- The pixels that are not reserved. -/
def keptSpots (spots : List (Nat × Spot)) : List (Nat × Spot) := spots.filter fun q => !q.2.reserved

/-- Sums over the flat list of pixels are sums over the image. -/
theorem sum_canvasSpots (f : Nat × Spot → Rat) :
    ((keptSpots (canvasSpots d c s)).map f).sum =
      c.sumKept fun y x => f (paletteOf d c s (c.tiling.blockIndex y x),
        spotAt (d.map Dithering.pattern) c.work c.reserved y x) := by
  rw [keptSpots, sum_map_filter, canvasSpots_eq, List.map_flatten, List.sum_flatten, List.map_ofFn, List.map_ofFn, List.sum_ofFn,
    c.sumKept_eq]
  refine sum_congr rfl fun b _ => ?_
  simp only [Function.comp_apply, List.map_ofFn, List.sum_ofFn, Canvas.sumTile]
  refine sum_congr rfl fun o _ => ?_
  simp only [spotIn, spotAt, Tiling.blockIndex_source]
  by_cases hr : c.reserved.get (c.tiling.sourceRow b o) (c.tiling.sourceColumn b o) <;> simp [hr]

/-- The mean error of pixels whose numbers are given by a function. -/
theorem meanError_map (spots : List (Nat × Spot)) (g : Nat × Spot → Nat) :
    meanError s spots (spots.map g) =
      if (keptSpots spots).length = 0 then 0
      else ((keptSpots spots).map fun q => pixelError s q.1 q.2 (g q)).sum / (keptSpots spots).length := by
  have hzip : spots.zip (spots.map g) = spots.map fun q => (q, g q) := by
    simpa using List.zip_map' (f := id) (g := g) (l := spots)
  have hkept : ((spots.zip (spots.map g)).filter fun q => !q.1.2.reserved) =
      (keptSpots spots).map fun q => (q, g q) := by
    rw [hzip, List.filter_map]
    rfl
  have hmean : meanError s spots (spots.map g) =
      (let kept := (spots.zip (spots.map g)).filter fun q => !q.1.2.reserved
      if kept.isEmpty then 0
      else Scalar.sum (kept.map fun q => pixelError s q.1.1 q.1.2 q.2) / Scalar.ofNat kept.length) := rfl
  simp only [hmean, hkept, Scalar.sum_rat, Scalar.ofNat_rat, List.length_map, List.map_map, List.isEmpty_iff,
    List.map_eq_nil_iff, List.length_eq_zero_iff]
  rfl

theorem length_keptSpots : (keptSpots (canvasSpots d c s)).length = c.tiles.totalWeight := by
  have hsum := sum_canvasSpots d c (s := s) fun _ => 1
  rw [← c.totalWeight_eq, List.map_const', List.sum_replicate, nsmul_one] at hsum
  exact_mod_cast hsum

/-- **The error of a composition** is the mean over the pixels that are not reserved, by the numbers that it gives them. -/
theorem compose_mse (h : 0 < s.size) :
    (compose d c c.tiles s cancelled).mse =
      if c.tiles.totalWeight = 0 then 0
      else imageError c s.snapped (fun b => paletteOf d c s b) (numberAt d c s) / c.tiles.totalWeight := by
  change meanError s.snapped (canvasSpots d c s) (indices (d.map Dithering.rule) s.snapped (canvasSpots d c s)) = _
  rw [canvasNumbers_eq d c h, meanError_map, length_keptSpots, sum_canvasSpots]
  rfl

end Compose

end Tessera
