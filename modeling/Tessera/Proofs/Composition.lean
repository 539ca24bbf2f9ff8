import Mathlib
import Tessera.Composition.Compose
import Tessera.Proofs.Fit
import Tessera.Proofs.Rasters
/-!
# What a composition holds

Composing works on flat lists, tile by tile, in spans, and palette by palette within a span. `compose_colorIndices` and
`compose_tilePalettes` say what comes of it in the image: the number at `(y, x)` is the number of that pixel under the
palette of its own tile. A number is zero for a reserved pixel and names a candidate otherwise, so all numbers are slots
that there are, and the composition renders.
-/

namespace Tessera

/-! ## Slots of mixes -/

namespace Mix

variable {α : Type} [Scalar α]

theorem mem_pairs {β : Type} {xs : List β} {p : β × β} (h : p ∈ pairs xs) : p.1 ∈ xs ∧ p.2 ∈ xs := by
  induction xs with
  | nil => simp [pairs] at h
  | cons x xs ih =>
    simp only [pairs, List.mem_append, List.mem_map] at h
    rcases h with ⟨y, hy, rfl⟩ | h
    · exact ⟨List.mem_cons_self, List.mem_cons_of_mem _ hy⟩
    · exact ⟨List.mem_cons_of_mem _ (ih h).1, List.mem_cons_of_mem _ (ih h).2⟩

theorem mem_nearestColors {point : Rgb α} {colors : List (Rgb α)} {a : α × Rgb α × Nat}
    (h : a ∈ nearestColors point colors) : a.2.2 < colors.length := by
  have h := List.mem_mergeSort.1 (List.mem_of_mem_take h)
  obtain ⟨⟨c, i⟩, hc, rfl⟩ := List.mem_map.1 h
  have := (List.mem_zipIdx hc).2.1
  simpa using this

theorem nearestColors_ne_nil {point : Rgb α} {colors : List (Rgb α)} (h : colors ≠ []) :
    nearestColors point colors ≠ [] := by
  have : 0 < colors.length := List.length_pos_iff.2 h
  rw [ne_eq, ← List.length_eq_zero_iff]
  simp [nearestColors, candidates, List.length_mergeSort]
  omega

/-- The best mix of some colours shows two of them, at a level that there is. -/
theorem search_lt (rule : MixRule α) (point : Rgb α) {colors : List (Rgb α)} (h : colors ≠ []) :
    ∃ m, search rule point colors = some m ∧ (m.first < colors.length ∧ m.second < colors.length) ∧ m.level ≤ rule.levels := by
  have hmem : ∀ a ∈ nearestColors point colors, a.2.2 < colors.length := fun _ => mem_nearestColors
  rw [search]
  generalize hn : nearestColors point colors = near at hmem
  cases near with
  | nil => exact absurd hn (nearestColors_ne_nil h)
  | cons first rest =>
    refine ⟨_, rfl, ?_⟩
    -- whichever mix the fold keeps is the first one or one of the trials
    refine List.foldlRecOn _ _
      (motive := fun m : Mix α => (m.first < colors.length ∧ m.second < colors.length) ∧ m.level ≤ rule.levels)
      ⟨⟨hmem _ List.mem_cons_self, hmem _ List.mem_cons_self⟩, Nat.zero_le _⟩ ?_
    intro m hm n hn
    obtain ⟨⟨a, b⟩, hab, hn⟩ := List.mem_flatMap.1 hn
    obtain ⟨k, hk, rfl⟩ := List.mem_map.1 hn
    rw [List.mem_range'_1] at hk
    obtain ⟨ha, hb⟩ := mem_pairs hab
    obtain ⟨a', ha', rfl⟩ := List.mem_map.1 ha
    obtain ⟨b', hb', rfl⟩ := List.mem_map.1 hb
    rw [better]
    split
    · exact ⟨⟨hmem _ ha', hmem _ hb'⟩, by dsimp only; omega⟩
    · exact hm

omit [Scalar α] in
theorem slotAt_lt {m : Mix α} {n : Nat} (h : m.first < n ∧ m.second < n) (rank : Nat) : m.slotAt rank < n := by
  rw [slotAt]
  split
  · exact h.2
  · exact h.1

end Mix

/-! ## Numbers of pixels -/

namespace Compose

variable {α : Type} [Scalar α]

/-- The number of a pixel among all slots of its palette, whether it is reserved or not. -/
def pixelIndex (rule : Option (MixRule α)) (s : PaletteSet α) (p : Nat) (x : Spot) : Nat :=
  match rule with
  | none => plainIndex s p x
  | some r => mixIndex r s p x

/-- The number that a pixel gets. -/
def number (rule : Option (MixRule α)) (s : PaletteSet α) (p : Nat) (x : Spot) : Nat :=
  if x.reserved then 0 else pixelIndex rule s p x

/-- The array has the right value at every place that is done. -/
structure Filled (target : Nat → Nat) (n : Nat) (done : Nat → Prop) (out : Array Nat) : Prop where
  size_eq : out.size = n
  getElem?_eq : ∀ i < n, done i → out[i]? = some (target i)

theorem Filled.scatter {target : Nat → Nat} {n : Nat} {done : Nat → Prop} {out : Array Nat} {values : List (Nat × Nat)}
    (h : Filled target n done out) (hv : ∀ v ∈ values, v.2 = target v.1) :
    Filled target n (fun i => done i ∨ ∃ v ∈ values, v.1 = i) (scatter out values) := by
  induction values generalizing out done with
  | nil => exact ⟨h.size_eq, fun i hi hd => h.getElem?_eq i hi (by simpa using hd)⟩
  | cons v values ih =>
    have hstep : Filled target n (fun i => done i ∨ v.1 = i) (out.setIfInBounds v.1 v.2) := by
      refine ⟨by rw [Array.size_setIfInBounds, h.size_eq], fun i hi hd => ?_⟩
      rw [Array.getElem?_setIfInBounds]
      by_cases hvi : v.1 = i
      · rw [if_pos hvi, if_pos (by rw [h.size_eq]; omega), hv v List.mem_cons_self, hvi]
      · rw [if_neg hvi, h.getElem?_eq i hi (hd.resolve_right hvi)]
    have := ih hstep fun w hw => hv w (List.mem_cons_of_mem _ hw)
    refine ⟨this.size_eq, fun i hi hd => this.getElem?_eq i hi ?_⟩
    simpa only [List.mem_cons, exists_eq_or_imp, or_assoc] using hd

/-- The places of a span with one palette, each with the number of its pixel. -/
def mixGroup (rule : MixRule α) (s : PaletteSet α) (span : List (Nat × Spot)) (p : Nat) : List (Nat × Nat) :=
  (span.zipIdx.filter fun v => v.1.1 == p).map fun v => (v.2, mixIndex rule s p v.1.2)

/-- The number of the pixel at a place of a span. -/
def mixTarget (rule : MixRule α) (s : PaletteSet α) (span : List (Nat × Spot)) (i : Nat) : Nat :=
  (span[i]?).elim 0 fun q => mixIndex rule s q.1 q.2

/-- Searching the pixels of a palette together gives each of them its own number. -/
theorem mixSpan_eq_foldl (rule : MixRule α) (s : PaletteSet α) (span : List (Nat × Spot)) :
    mixSpan rule s span = ((List.range s.size).foldl (fun out p => scatter out (mixGroup rule s span p))
      (Array.replicate span.length 0)).toList := by
  have hgroup : ∀ p, mixGroup rule s span p =
      (span.zipIdx.filter fun v => v.1.1 == p).zipWith
        (fun v m => (v.2, (m.elim 0 fun m => m.slotAt v.1.2.rank) + s.firstCandidate))
        (Mix.searchEach rule ((span.zipIdx.filter fun v => v.1.1 == p).map fun v => Rgb.ofBytes v.1.2.color)
          (s.candidatesOf p)) := by
    intro p
    rw [Mix.searchEach_eq_map, List.map_map, List.zipWith_map_right, List.zipWith_self]
    rfl
  simp only [hgroup]
  rfl

theorem mem_mixGroup {rule : MixRule α} {s : PaletteSet α} {span : List (Nat × Spot)} {p : Nat} {v : Nat × Nat}
    (h : v ∈ mixGroup rule s span p) : v.2 = mixTarget rule s span v.1 := by
  obtain ⟨⟨⟨q, x⟩, i⟩, hq, rfl⟩ := List.mem_map.1 h
  obtain ⟨hm, hqp⟩ := List.mem_filter.1 hq
  have hi := List.mk_mem_zipIdx_iff_getElem?.1 hm
  simp only [beq_iff_eq] at hqp
  simp [mixTarget, hi, hqp]

theorem mixGroup_mem (rule : MixRule α) (s : PaletteSet α) {span : List (Nat × Spot)} {i p : Nat} {x : Spot}
    (h : span[i]? = some (p, x)) : (i, mixIndex rule s p x) ∈ mixGroup rule s span p :=
  List.mem_map.2 ⟨((p, x), i), List.mem_filter.2 ⟨List.mk_mem_zipIdx_iff_getElem?.2 h, by simp⟩, rfl⟩

/-- After `k` palettes the places of those palettes are done. -/
theorem filled_mixGroups (rule : MixRule α) (s : PaletteSet α) (span : List (Nat × Spot)) (k : Nat) :
    Filled (mixTarget rule s span) span.length (fun i => ∃ q, span[i]? = some q ∧ q.1 < k)
      ((List.range k).foldl (fun out p => scatter out (mixGroup rule s span p)) (Array.replicate span.length 0)) := by
  induction k with
  | zero =>
    refine ⟨by simp, ?_⟩
    rintro i - ⟨q, -, hq⟩
    exact absurd hq (Nat.not_lt_zero _)
  | succ k ih =>
    rw [List.range_succ, List.foldl_append, List.foldl_cons, List.foldl_nil]
    have hstep := ih.scatter fun v (hv : v ∈ mixGroup rule s span k) => mem_mixGroup hv
    refine ⟨hstep.size_eq, ?_⟩
    rintro i hi ⟨⟨p, x⟩, hq, hk⟩
    apply hstep.getElem?_eq i hi
    rcases Nat.lt_succ_iff_lt_or_eq.1 hk with hk | rfl
    · exact .inl ⟨_, hq, hk⟩
    · exact .inr ⟨_, mixGroup_mem rule s hq, rfl⟩

/-- Working palette by palette gives every pixel of a span its own number. -/
theorem mixSpan_eq_map (rule : MixRule α) (s : PaletteSet α) (span : List (Nat × Spot)) (h : ∀ q ∈ span, q.1 < s.size) :
    mixSpan rule s span = span.map fun q => mixIndex rule s q.1 q.2 := by
  have hall := filled_mixGroups rule s span s.size
  apply List.ext_getElem?
  intro i
  rw [List.getElem?_map, mixSpan_eq_foldl, Array.getElem?_toList]
  by_cases hi : i < span.length
  · have hq := List.getElem?_eq_getElem hi
    rw [hall.getElem?_eq i hi ⟨_, hq, h _ (List.getElem_mem hi)⟩]
    simp [mixTarget, hq]
  · rw [List.getElem?_eq_none (by omega), Array.getElem?_eq_none (by rw [hall.size_eq]; omega)]
    rfl

theorem spanIndices_eq_map (rule : Option (MixRule α)) (s : PaletteSet α) (span : List (Nat × Spot))
    (h : ∀ q ∈ span, q.1 < s.size) : spanIndices rule s span = span.map fun q => pixelIndex rule s q.1 q.2 := by
  cases rule with
  | none => rfl
  | some r => exact mixSpan_eq_map r s span h

/-- **Numbers, pixel by pixel.** Every pixel gets its own number, whatever the spans and the groups. -/
theorem indices_eq_map (rule : Option (MixRule α)) (s : PaletteSet α) (spots : List (Nat × Spot))
    (h : ∀ q ∈ spots, q.1 < s.size) : indices rule s spots = spots.map fun q => number rule s q.1 q.2 := by
  have hspans : pixelIndicesBy Span.chunkRows rule s spots = spots.map fun q => pixelIndex rule s q.1 q.2 :=
    Span.chunked_eq_map _ _ _ _ fun span hs => spanIndices_eq_map rule s span fun q hq => h q (hs q hq)
  rw [indices, hspans, List.zipWith_map_left, List.zipWith_self]
  rfl

/-- A pixel takes a candidate of a palette that has one. -/
theorem pixelIndex_mem (rule : Option (MixRule α)) {s : PaletteSet α} {p : Nat} (x : Spot) (hp : p < s.size)
    (hc : 0 < s.candidateCount) :
    s.firstCandidate ≤ pixelIndex rule s p x ∧ pixelIndex rule s p x < s.slots := by
  have hlen := s.length_candidatesOf hp
  have hne := PaletteSet.candidatesOf_ne_nil hp hc
  have hcount : s.candidateCount = s.slots - s.firstCandidate := rfl
  cases rule with
  | none =>
    have hmap : (s.candidatesOf p).map (Rgb.ofBytes x.color).sqDist ≠ [] := by simpa using hne
    have := Pick.argLeast_lt hmap
    rw [List.length_map] at this
    simp only [pixelIndex, plainIndex]
    omega
  | some r =>
    obtain ⟨m, hm, hlt, -⟩ := Mix.search_lt r (Rgb.ofBytes x.color) hne
    have := Mix.slotAt_lt hlt x.rank
    simp only [pixelIndex, mixIndex, hm, Option.elim_some]
    omega

theorem number_lt {rule : Option (MixRule α)} {s : PaletteSet α} {p : Nat} (x : Spot) (hp : p < s.size)
    (hc : 0 < s.candidateCount) : number rule s p x < s.slots := by
  have := (pixelIndex_mem rule x hp hc).2
  rw [number]
  split <;> omega

/-- Where the first slot is kept for reserved pixels, no other pixel takes it. -/
theorem number_eq_zero_iff {rule : Option (MixRule α)} {s : PaletteSet α} {p : Nat} (x : Spot) (hp : p < s.size)
    (hc : 0 < s.candidateCount) (ht : s.zero.isTransparent) : number rule s p x = 0 ↔ x.reserved := by
  have hle := (pixelIndex_mem rule x hp hc).1
  have hone : s.firstCandidate = 1 := by simp [PaletteSet.firstCandidate, ColorZero.reservedSlots, ht]
  by_cases hr : x.reserved
  · simp [number, hr]
  · simp only [number, hr, if_false, iff_false, Bool.false_eq_true]; omega

/-! ## In the image -/

variable {height width : Nat}

/-- The pixel of a canvas as the composition sees it. -/
def spotAt (pattern : Option Dither.Pattern) (work : Raster (Rgb UInt8) height width)
    (reserved : Raster Bool height width) (y : Fin height) (x : Fin width) : Spot :=
  ⟨work.get y x, reserved.get y x, pattern.elim 0 fun p => p.rankAt x.val y.val⟩

theorem mem_spots {pattern : Option Dither.Pattern} {t : Tiling height width} {work : Raster (Rgb UInt8) height width}
    {reserved : Raster Bool height width} {assigned : List Nat} {q : Nat × Spot}
    (h : q ∈ spots pattern t work reserved assigned) : q.1 ∈ assigned := by
  obtain ⟨cells, hcells, hq⟩ := List.mem_flatMap.1 h
  obtain ⟨x, -, rfl⟩ := List.mem_map.1 hq
  exact (List.of_mem_zip hcells).2

/-- The flat list of pixels, tile by tile. -/
theorem spots_eq (pattern : Option Dither.Pattern) (t : Tiling height width) (work : Raster (Rgb UInt8) height width)
    (reserved : Raster Bool height width) (a : Fin t.tiles → Nat) :
    spots pattern t work reserved (List.ofFn a) =
      (List.ofFn fun b => List.ofFn fun o =>
        (a b, spotAt pattern work reserved (t.sourceRow b o) (t.sourceColumn b o))).flatten := by
  rw [spots, Raster.toLists_eq, List.flatMap]
  congr 1
  apply List.ext_getElem
  · simp
  intro b h1 h2
  simp [Tiling.blocks, List.map_ofFn, Function.comp_def, spotAt]

theorem placed_flatten (t : Tiling height width) (f : Fin t.tiles → Fin t.area → Nat) :
    placed t (List.ofFn fun b => List.ofFn (f b)).flatten.toArray =
      .ofFn fun y x => f (t.blockIndex y x) (t.blockOffset y x) := by
  ext y x
  have := flatten_ofFn_getElem? f (t.blockIndex y x) (t.blockOffset y x)
  simp only [placed, Tiling.unblocks, Raster.get_ofFn, Array.getD_eq_getD_getElem?, List.getElem?_toArray]
  rw [this]
  rfl

end Compose

theorem list_eq_ofFn_getD {l : List Nat} {n : Nat} (h : l.length = n) : l = List.ofFn fun i : Fin n => l.getD i 0 := by
  apply List.ext_getElem
  · simp [h]
  intro i h1 h2
  simp [List.getD, h1]

/-! ## Compositions of canvases -/

namespace PaletteSet

variable {α : Type} [Scalar α]

/-- The working palettes with every colour rounded to bytes. -/
def snapped (s : PaletteSet α) : PaletteSet α := s.toBytes.ofBytes

@[simp] theorem snapped_zero (s : PaletteSet α) : s.snapped.zero = s.zero := rfl

@[simp] theorem snapped_slots (s : PaletteSet α) : s.snapped.slots = s.slots := rfl

@[simp] theorem snapped_size (s : PaletteSet α) : s.snapped.size = s.size := by
  simp [snapped, size, toBytes, ofBytes, map]

@[simp] theorem snapped_candidateCount (s : PaletteSet α) : s.snapped.candidateCount = s.candidateCount := rfl

end PaletteSet

namespace Canvas

theorem length_tiles (c : Canvas) : c.tiles.tiles.length = c.tiling.tiles := by
  simp [tiles, TileSet.extract, TileSet.ofBlocks, Raster.length_toLists]

theorem tiles_inOrder (c : Canvas) : c.tiles.InOrder := TileSet.ofBlocks_inOrder _ _ _ _ _

end Canvas

namespace Compose

variable {α : Type} [Scalar α] (d : Option (Dithering α)) (c : Canvas) (s : PaletteSet α) (cancelled : Bool)

/-- The palette that a tile of a canvas takes. -/
def paletteOf (b : Nat) : Nat := (Fit.assignment (d.map Dithering.rule) c.tiles s.snapped).getD b 0

theorem assignment_eq :
    Fit.assignment (d.map Dithering.rule) c.tiles s.snapped = List.ofFn fun b : Fin c.tiling.tiles => paletteOf d c s b :=
  list_eq_ofFn_getD (by rw [Fit.length_assignment, c.length_tiles])

variable {s}

theorem paletteOf_lt (h : 0 < s.size) (b : Nat) : paletteOf d c s b < s.size := by
  rw [paletteOf, List.getD_eq_getElem?_getD]
  cases hb : (Fit.assignment (d.map Dithering.rule) c.tiles s.snapped)[b]? with
  | none => exact h
  | some p =>
    have := Fit.assignment_lt (d.map Dithering.rule) c.tiles (s := s.snapped) (by simpa using h) p
      (List.mem_of_getElem? hb)
    simpa using this

variable (s)

/-- The pixels of a canvas, each with the palette of its tile. -/
def canvasSpots : List (Nat × Spot) :=
  spots (d.map Dithering.pattern) c.tiling c.work c.reserved (Fit.assignment (d.map Dithering.rule) c.tiles s.snapped)

/-- The pixel at an offset of a tile, with the palette of the tile. -/
def spotIn (b : Fin c.tiling.tiles) (o : Fin c.tiling.area) : Nat × Spot :=
  (paletteOf d c s b,
    spotAt (d.map Dithering.pattern) c.work c.reserved (c.tiling.sourceRow b o) (c.tiling.sourceColumn b o))

theorem canvasSpots_eq : canvasSpots d c s = (List.ofFn fun b => List.ofFn (spotIn d c s b)).flatten := by
  rw [canvasSpots, assignment_eq, spots_eq]
  rfl

variable {s}

theorem canvasNumbers_eq (h : 0 < s.size) :
    indices (d.map Dithering.rule) s.snapped (canvasSpots d c s) =
      (canvasSpots d c s).map fun q => number (d.map Dithering.rule) s.snapped q.1 q.2 := by
  apply indices_eq_map
  intro q hq
  simp only [canvasSpots_eq, List.mem_flatten, List.mem_ofFn] at hq
  obtain ⟨_, ⟨b, rfl⟩, hq⟩ := hq
  obtain ⟨o, rfl⟩ := List.mem_ofFn.1 hq
  simpa [spotIn] using paletteOf_lt d c h b

variable (s)

/-- The number of a pixel of a canvas. -/
def numberAt (y : Fin c.height) (x : Fin c.width) : Nat :=
  number (d.map Dithering.rule) s.snapped (paletteOf d c s (c.tiling.blockIndex y x))
    (spotAt (d.map Dithering.pattern) c.work c.reserved y x)

variable {s}

/-- **Numbers in the image.** The number at a place is that of its pixel under the palette of its tile. -/
theorem compose_colorIndices (h : 0 < s.size) :
    (compose d c c.tiles s cancelled).colorIndices = (Raster.ofFn (numberAt d c s)).toLists := by
  have hnumbers : indices (d.map Dithering.rule) s.snapped (canvasSpots d c s) =
      (List.ofFn fun b => List.ofFn fun o =>
        number (d.map Dithering.rule) s.snapped (spotIn d c s b o).1 (spotIn d c s b o).2).flatten := by
    rw [canvasNumbers_eq d c h, canvasSpots_eq, List.map_flatten, List.map_ofFn]
    simp only [Function.comp_def, List.map_ofFn]
  change (placed c.tiling (indices (d.map Dithering.rule) s.snapped (canvasSpots d c s)).toArray).toLists = _
  rw [hnumbers, placed_flatten]
  simp only [spotIn, Tiling.sourceRow_block, Tiling.sourceColumn_block]
  rfl

/-- **Palettes of the tiles.** Row by row every tile has the palette that it takes. -/
theorem compose_tilePalettes :
    (compose d c c.tiles s cancelled).tilePalettes =
      (Raster.ofFn fun (r : Fin c.tiling.rows) (k : Fin c.tiling.cols) =>
        paletteOf d c s (r.val * c.tiling.cols + k.val)).toLists := by
  have hrows := map_drop_take fun b : Fin c.tiling.tiles => paletteOf d c s b
  rw [← assignment_eq] at hrows
  rw [Raster.toLists_eq]
  simp only [Raster.get_ofFn]
  exact hrows

end Compose

/-! ## Rendering -/

namespace Composition

/-- The palettes of a composition, which are bytes, under a policy. -/
def stored {α : Type} (r : Composition α) (zero : ColorZero) : PaletteSet UInt8 := ⟨zero, r.slots, r.palettes⟩

variable {α : Type} {c : Composition α} {height width : Nat}

/-- The palette numbers of the pixels, by those of the tiles. -/
theorem paletteMap_eq (t : Tiling height width) {palettes : Raster Nat t.rows t.cols}
    (hp : c.tilePalettes = palettes.toLists) (hw : c.tileWidth = t.tileWidth) (hh : c.tileHeight = t.tileHeight) :
    c.paletteMap = (Raster.ofFn fun (y : Fin height) (x : Fin width) =>
      palettes.get ⟨y.val / t.tileHeight, t.div_tileHeight_lt y⟩ ⟨x.val / t.tileWidth, t.div_tileWidth_lt x⟩).toLists := by
  obtain ⟨tw, th, rows, cols, htw, hth, rfl, rfl⟩ := t
  simp only at palettes hw hh
  have hrow : ∀ r, (List.ofFn fun k => palettes.get r k).flatMap (List.replicate tw) =
      List.ofFn fun x : Fin (cols * tw) => palettes.get r x.divNat := fun r => flatMap_replicate _
  have hstretch := flatMap_replicate (n := th) fun r => List.ofFn fun x : Fin (cols * tw) => palettes.get r x.divNat
  rw [paletteMap, hp, hw, hh, Raster.toLists_eq, Raster.toLists_eq]
  simp only [Raster.get_ofFn]
  calc (List.ofFn fun r => List.ofFn fun k => palettes.get r k).flatMap
        (fun row => List.replicate th (row.flatMap fun p => List.replicate tw p))
      = (List.ofFn fun r => (List.ofFn fun k => palettes.get r k).flatMap (List.replicate tw)).flatMap
          (List.replicate th) := by
        rw [List.flatMap, List.flatMap, List.map_ofFn, List.map_ofFn]; rfl
    _ = _ := by simp only [hrow]; exact hstretch

/-- A pixel has the alpha of its colour number. -/
theorem alpha_of_pixelAt {p k : Nat} {x : Pixel} (h : c.pixelAt p k = .ok x) : x.alpha = c.alphaOf k := by
  rw [pixelAt] at h
  cases hc : c.colorAt p k with
  | error e => rw [hc] at h; cases h
  | ok color => rw [hc] at h; cases h; rfl

/-- Palette numbers for the tiles and slot numbers for the pixels, all in range, render to the pixels that they name. -/
theorem render_eq (t : Tiling height width) {palettes : Raster Nat t.rows t.cols} {numbers : Raster Nat height width}
    (hp : c.tilePalettes = palettes.toLists) (hw : c.tileWidth = t.tileWidth) (hh : c.tileHeight = t.tileHeight)
    (hn : c.colorIndices = numbers.toLists) (hpl : ∀ r k, palettes.get r k < c.palettes.length)
    (hnl : ∀ y x, numbers.get y x < c.slots) :
    ∃ pixels : Raster Pixel height width, c.render = .ok pixels.toLists ∧
      ∀ y x, c.pixelAt (palettes.get ⟨y.val / t.tileHeight, t.div_tileHeight_lt y⟩ ⟨x.val / t.tileWidth, t.div_tileWidth_lt x⟩)
        (numbers.get y x) = .ok (pixels.get y x) := by
  have hmap := paletteMap_eq t hp hw hh
  have hcover : c.isCovered = true := by
    simp [isCovered, rowLengths, hmap, hn, Raster.map_length_toLists]
  have hpixel : ∀ p k, p < c.palettes.length → k < c.slots → ∃ x, c.pixelAt p k = .ok x := by
    intro p k hp hk
    refine ⟨⟨(c.palettes.get ⟨p, hp⟩).get ⟨k, hk⟩, c.alphaOf k⟩, ?_⟩
    simp [pixelAt, colorAt, hp, hk]
    rfl
  choose pixel hpixel using fun y x => hpixel _ _
    (hpl ⟨y.val / t.tileHeight, t.div_tileHeight_lt y⟩ ⟨x.val / t.tileWidth, t.div_tileWidth_lt x⟩) (hnl y x)
  refine ⟨.ofFn pixel, ?_, fun y x => by rw [Raster.get_ofFn]; exact hpixel y x⟩
  rw [render, if_pos hcover, hmap, hn, zipRows, Raster.zipWith_toLists]
  exact Raster.mapM_toLists _ _ fun y x => by simp only [Raster.get_ofFn]; exact hpixel y x

end Composition

namespace Compose

variable {α : Type} [Scalar α] (d : Option (Dithering α)) (c : Canvas) {s : PaletteSet α} (cancelled : Bool)

theorem numberAt_lt (h : 0 < s.size) (hc : 0 < s.candidateCount) (y : Fin c.height) (x : Fin c.width) :
    numberAt d c s y x < s.slots :=
  number_lt _ (by simpa using paletteOf_lt d c h _) (by simpa using hc)

theorem numberAt_eq_zero_iff (h : 0 < s.size) (hc : 0 < s.candidateCount) (ht : s.zero.isTransparent) (y : Fin c.height)
    (x : Fin c.width) : numberAt d c s y x = 0 ↔ c.reserved.get y x :=
  number_eq_zero_iff _ (by simpa using paletteOf_lt d c h _) (by simpa using hc) ht

/-- A composition renders every pixel with the palette of its tile and with its number. -/
theorem compose_pixels (h : 0 < s.size) (hc : 0 < s.candidateCount) :
    ∃ pixels : Raster Pixel c.height c.width, (compose d c c.tiles s cancelled).render = .ok pixels.toLists ∧
      ∀ y x, (compose d c c.tiles s cancelled).pixelAt (paletteOf d c s (c.tiling.blockIndex y x)) (numberAt d c s y x) =
        .ok (pixels.get y x) := by
  obtain ⟨pixels, hrender, hpixels⟩ := Composition.render_eq (c := compose d c c.tiles s cancelled) c.tiling
    (compose_tilePalettes d c cancelled) rfl rfl (compose_colorIndices d c cancelled h)
    (fun r k => by
      rw [Raster.get_ofFn]
      exact Nat.lt_of_lt_of_eq (paletteOf_lt d c h _) (List.length_map _).symm)
    (fun y x => by
      rw [Raster.get_ofFn]
      exact numberAt_lt d c h hc y x)
  refine ⟨pixels, hrender, fun y x => ?_⟩
  have hpixel := hpixels y x
  rw [Raster.get_ofFn, Raster.get_ofFn] at hpixel
  exact hpixel

/-- A composition renders. Where the first slot is transparent, the reserved pixels are; nothing else is. -/
theorem compose_render (h : 0 < s.size) (hc : 0 < s.candidateCount) :
    ∃ pixels : Raster Pixel c.height c.width, (compose d c c.tiles s cancelled).render = .ok pixels.toLists ∧
      ∀ y x, (pixels.get y x).alpha = if s.zero.isTransparent && c.reserved.get y x then 0 else 255 := by
  obtain ⟨pixels, hrender, hpixels⟩ := compose_pixels d c cancelled h hc
  refine ⟨pixels, hrender, fun y x => ?_⟩
  rw [Composition.alpha_of_pixelAt (hpixels y x)]
  have hindex : (compose d c c.tiles s cancelled).transparentIndex = if s.zero.isTransparent then some 0 else none := rfl
  rw [Composition.alphaOf, hindex]
  by_cases ht : s.zero.isTransparent
  · have := numberAt_eq_zero_iff d c h hc ht y x
    simp only [ht, if_true, Option.some.injEq, Bool.true_and, eq_comm (a := 0), this]
  · simp [ht]

end Compose

end Tessera
