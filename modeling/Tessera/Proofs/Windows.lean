import Mathlib
import Tessera.Proofs.Correction
import Tessera.Proofs.Optimal
import Tessera.Proofs.Rendering
/-!
# Windows of a dithered image

The ranks of a pattern repeat in cells of two by two pixels, by the place in the image and not by the place in a tile. So a
window of two by two pixels meets the ranks of a whole cell, wherever it lies, and those below a level are as many as the
level says (`Dither.Pattern.countP_windowRanks`). Where the four pixels of a window have one colour and one palette, they show
the two colours of one mix, and their mean is the mixed colour (`Compose.compose_window`).
-/

namespace Tessera

/-! ## Ranks in a window -/

namespace Dither.Pattern

/-- The ranks of two by two pixels, from the left one above. -/
def windowRanks (p : Pattern) (x y : Int) : List Nat :=
  [p.rankAt x y, p.rankAt (x + 1) y, p.rankAt x (y + 1), p.rankAt (x + 1) (y + 1)]

/-- The ranks of a cell that starts anywhere: those below a level are the part of the cell that the level says. -/
theorem countP_cell (p : Pattern) (row column : Bool) :
    ∀ k ≤ p.levels,
      [p.rank row column, p.rank row !column, p.rank (!row) column, p.rank (!row) !column].countP (· < k) * p.levels =
        4 * k := by
  cases p <;> cases row <;> cases column <;> decide

theorem odd_succ (z : Int) : ((z + 1) % 2 == 1) = !(z % 2 == 1) := by
  rcases Int.emod_two_eq_zero_or_one z with hz | hz
  · have hsucc : (z + 1) % 2 = 1 := by omega
    simp [hz, hsucc]
  · have hsucc : (z + 1) % 2 = 0 := by omega
    simp [hz, hsucc]

/-- Wherever a window lies, its ranks below a level are the part of it that the level says. -/
theorem countP_windowRanks (p : Pattern) (x y : Int) {k : Nat} (hk : k ≤ p.levels) :
    (p.windowRanks x y).countP (· < k) * p.levels = 4 * k := by
  simp only [windowRanks, rankAt, odd_succ]
  exact p.countP_cell (y % 2 == 1) (x % 2 == 1) k hk

theorem levels_of_mem {f : Family} {p : Pattern} (h : p ∈ f.members) : p.levels = f.levels := by
  cases f with
  | two =>
    simp only [Family.members, List.mem_cons, List.not_mem_nil, or_false] at h
    rcases h with rfl | rfl | rfl <;> rfl
  | four =>
    simp only [Family.members, List.mem_cons, List.not_mem_nil, or_false] at h
    rcases h with rfl | rfl <;> rfl

theorem levels_pos (p : Pattern) : 0 < p.levels := by
  cases p <;> decide

end Dither.Pattern

/-! ## Windows -/

/-- Two neighbouring rows and two neighbouring columns of an image. -/
structure Window (height width : Nat) where
  top : Nat
  left : Nat
  top_lt : top + 1 < height
  left_lt : left + 1 < width

namespace Window

variable {height width : Nat}

/-- The four cells of a window, row by row. -/
def cells (w : Window height width) : List (Fin height × Fin width) :=
  [(⟨w.top, Nat.lt_of_succ_lt w.top_lt⟩, ⟨w.left, Nat.lt_of_succ_lt w.left_lt⟩),
    (⟨w.top, Nat.lt_of_succ_lt w.top_lt⟩, ⟨w.left + 1, w.left_lt⟩),
    (⟨w.top + 1, w.top_lt⟩, ⟨w.left, Nat.lt_of_succ_lt w.left_lt⟩), (⟨w.top + 1, w.top_lt⟩, ⟨w.left + 1, w.left_lt⟩)]

/-- The mean of the colours in a window. -/
def mean (w : Window height width) (color : Fin height → Fin width → Rgb Rat) : Rgb Rat :=
  (Rgb.sum (w.cells.map fun q => color q.1 q.2)).scale (1 / 4)

theorem map_rankAt_cells (w : Window height width) (p : Dither.Pattern) :
    (w.cells.map fun q => p.rankAt q.2.val q.1.val) = p.windowRanks w.left w.top := by
  simp [cells, Dither.Pattern.windowRanks]

end Window

/-- The sum of two colours, one where a rank is below a level and the other elsewhere. -/
theorem Rgb.sum_map_ite (c d : Rgb Rat) (k : Nat) (ranks : List Nat) :
    Rgb.sum (ranks.map fun r => if r < k then d else c) =
      (c.scale (ranks.length : Rat)).add ((d.sub c).scale (ranks.countP (· < k) : Rat)) := by
  induction ranks with
  | nil => simp [Rgb.sum, Rgb.scale, Rgb.map, Rgb.add, Rgb.zipWith, Rgb.fill, Scalar.ofNat_rat]
  | cons r ranks ih =>
    rw [List.map_cons, Rgb.sum_cons, ih, List.length_cons, List.countP_cons]
    simp only [Rgb.scale, Rgb.map, Rgb.add, Rgb.sub, Rgb.zipWith]
    by_cases hr : r < k
    · simp only [hr, if_true, decide_true, Nat.cast_add, Nat.cast_one, Rgb.mk.injEq]
      refine ⟨?_, ?_, ?_⟩ <;> ring
    · simp only [hr, if_false, decide_false, Bool.false_eq_true, Nat.cast_add, Nat.cast_one, Nat.add_zero, Rgb.mk.injEq]
      refine ⟨?_, ?_, ?_⟩ <;> ring

/-- A window that shows two colours by the ranks of a pattern shows their mix on average. -/
theorem Window.mean_eq_blend {height width : Nat} (w : Window height width) (p : Dither.Pattern) {k : Nat} (hk : k ≤ p.levels)
    {c d : Rgb Rat} {color : Fin height → Fin width → Rgb Rat}
    (h : ∀ q ∈ w.cells, color q.1 q.2 = if p.rankAt q.2.val q.1.val < k then d else c) :
    w.mean color = Mix.blend ((k : Rat) / p.levels) c d := by
  have hcolors : (w.cells.map fun q => color q.1 q.2) =
      (p.windowRanks w.left w.top).map fun r => if r < k then d else c := by
    rw [← w.map_rankAt_cells, List.map_map]
    exact List.map_congr_left h
  have hcount : ((p.windowRanks w.left w.top).countP (· < k) : Rat) = 4 * (k / p.levels) := by
    have hlevels : (p.levels : Rat) ≠ 0 := by exact_mod_cast p.levels_pos.ne'
    have hcast : ((p.windowRanks w.left w.top).countP (· < k) : Rat) * p.levels = 4 * k := by
      exact_mod_cast p.countP_windowRanks w.left w.top hk
    field_simp
    exact hcast
  have hlength : (p.windowRanks w.left w.top).length = 4 := rfl
  rw [mean, hcolors, Rgb.sum_map_ite, hcount, hlength]
  simp only [Mix.blend, Rgb.scale, Rgb.map, Rgb.add, Rgb.sub, Rgb.zipWith, Rgb.mk.injEq]
  refine ⟨?_, ?_, ?_⟩ <;> push_cast <;> ring

/-! ## What a dithered composition shows -/

theorem Mix.getElem?_slotAt {α β : Type} {m : Mix α} {colors : List β} {c d : β} (hc : colors[m.first]? = some c)
    (hd : colors[m.second]? = some d) (rank : Nat) : colors[m.slotAt rank]? = some (if rank < m.level then d else c) := by
  rw [slotAt]
  split
  · exact hd
  · exact hc

namespace Compose

section

variable {α : Type} [Scalar α] (c : Canvas) {s : PaletteSet α}

/-- Every pixel of a composition has the palette of its tile. -/
theorem compose_paletteMap (d : Option (Dithering α)) (cancelled : Bool) :
    (compose d c c.tiles s cancelled).paletteMap =
      (Raster.ofFn fun y x => paletteOf d c s (c.tiling.blockIndex y x)).toLists := by
  have hmap := Composition.paletteMap_eq (c := compose d c c.tiles s cancelled) c.tiling (compose_tilePalettes d c cancelled)
    rfl rfl
  simp only [Raster.get_ofFn] at hmap
  exact hmap

/-- A dithered pixel that is not reserved shows the candidate that its rank asks for. -/
theorem candidate_of_pixel (d : Dithering α) {cancelled : Bool} {y : Fin c.height} {x : Fin c.width} {shown : Pixel}
    {m : Mix α} (hreserved : ¬ c.reserved.get y x)
    (hshown : (compose (some d) c c.tiles s cancelled).pixelAt (paletteOf (some d) c s (c.tiling.blockIndex y x))
      (numberAt (some d) c s y x) = .ok shown)
    (hm : Mix.search d.rule (Rgb.ofBytes (c.work.get y x))
      (s.snapped.candidatesOf (paletteOf (some d) c s (c.tiling.blockIndex y x))) = some m) :
    (s.toBytes.candidatesOf (paletteOf (some d) c s (c.tiling.blockIndex y x)))[m.slotAt (d.pattern.rankAt x.val y.val)]? =
      some shown.color := by
  have hcolor : s.toBytes.color? (paletteOf (some d) c s (c.tiling.blockIndex y x)) (numberAt (some d) c s y x) =
      some shown.color := Composition.color?_of_pixelAt hshown s.zero
  have hnumber : numberAt (some d) c s y x = s.toBytes.firstCandidate + m.slotAt (d.pattern.rankAt x.val y.val) := by
    have hindex : numberAt (some d) c s y x =
        mixIndex d.rule s.snapped (paletteOf (some d) c s (c.tiling.blockIndex y x))
          (spotAt (some d.pattern) c.work c.reserved y x) := by
      rw [numberAt, number, if_neg (by exact hreserved)]
      rfl
    rw [hindex, mixIndex]
    simp only [spotAt, hm, Option.elim_some]
    exact Nat.add_comm _ _
  rw [← s.toBytes.color?_candidate, ← hnumber]
  exact hcolor

end

/-- **Dithering keeps the mix in every window.** From palettes with a candidate a composition is made with any registered
pattern, and it renders. Take two by two neighbouring pixels anywhere in the image, in one tile or across tiles, that are not
reserved and have one colour and one palette. Then the four pixels show the two colours of the mix that the search finds for
their colour among the candidates of that palette, and the mean of the four colours that are shown is this mix, exactly. The
search may be rounded; the colours that are shown are bytes, and their mean is taken without rounding. -/
theorem compose_window {α : Type} [Scalar α] (f : Dither.Family) (pattern : Dither.Pattern) (hpattern : pattern ∈ f.members)
    (weight : α) (c : Canvas) (s : PaletteSet α) (cancelled : Bool) (h : 0 < s.size) (hc : 0 < s.candidateCount) :
    ∃ (r : Composition α) (shown : Raster Pixel c.height c.width),
      checked (some ⟨pattern, weight⟩) c c.tiles s cancelled = .ok r ∧ r.render = .ok shown.toLists ∧
      ∀ (w : Window c.height c.width) (color : Rgb UInt8) (p : Nat),
        (∀ q ∈ w.cells, ¬ c.reserved.get q.1 q.2 ∧ c.work.get q.1 q.2 = color ∧
          (r.paletteMap[q.1.val]?.bind fun row => row[q.2.val]?) = some p) →
        ∃ (m : Mix α) (first second : Rgb UInt8),
          Mix.search ⟨f.levels, weight⟩ (Rgb.ofBytes color) ((r.working s.zero).candidatesOf p) = some m ∧
          ((r.stored s.zero).candidatesOf p)[m.first]? = some first ∧
          ((r.stored s.zero).candidatesOf p)[m.second]? = some second ∧
          w.mean (fun y x => Rgb.ofBytes (shown.get y x).color) =
            Mix.blend ((m.level : Rat) / f.levels) (Rgb.ofBytes first) (Rgb.ofBytes second) := by
  obtain ⟨shown, hrender, hpixels⟩ := compose_pixels (some ⟨pattern, weight⟩) c cancelled h hc
  refine ⟨compose (some ⟨pattern, weight⟩) c c.tiles s cancelled, shown, ?_, hrender, ?_⟩
  · rw [checked, if_neg (by omega)]
    rfl
  intro w color p hwindow
  have hpalette : ∀ q ∈ w.cells, paletteOf (some ⟨pattern, weight⟩) c s (c.tiling.blockIndex q.1 q.2) = p := by
    intro q hq
    obtain ⟨-, -, hp⟩ := hwindow q hq
    simpa [compose_paletteMap, Raster.toLists_eq] using hp
  have hlt : p < s.snapped.size := by
    rw [← hpalette _ List.mem_cons_self]
    simpa using paletteOf_lt (some ⟨pattern, weight⟩) c h _
  have hne : s.snapped.candidatesOf p ≠ [] := PaletteSet.candidatesOf_ne_nil hlt (by simpa using hc)
  have hlength : (s.snapped.candidatesOf p).length = (s.toBytes.candidatesOf p).length := by
    rw [PaletteSet.snapped, PaletteSet.ofBytes, PaletteSet.candidatesOf_map, List.length_map]
  rw [← Dither.Pattern.levels_of_mem hpattern]
  obtain ⟨m, hsearch, ⟨hfirst, hsecond⟩, hlevel⟩ := Mix.search_lt ⟨pattern.levels, weight⟩ (Rgb.ofBytes color) hne
  rw [hlength] at hfirst hsecond
  refine ⟨m, _, _, hsearch, List.getElem?_eq_getElem hfirst, List.getElem?_eq_getElem hsecond, ?_⟩
  refine w.mean_eq_blend pattern hlevel ?_
  intro q hq
  obtain ⟨hreserved, hcolor, -⟩ := hwindow q hq
  have hshown := candidate_of_pixel c ⟨pattern, weight⟩ hreserved (hpixels q.1 q.2)
    (by rw [hcolor, hpalette q hq]; exact hsearch)
  rw [hpalette q hq, Mix.getElem?_slotAt (List.getElem?_eq_getElem hfirst) (List.getElem?_eq_getElem hsecond)] at hshown
  rw [← Option.some.inj hshown]
  exact apply_ite Rgb.ofBytes _ _ _

/-- A canvas of one colour, cut into tiles that are one pixel wide, with its first row reserved. -/
def flatCanvas : Canvas :=
  { ditherCanvas with
    work := .ofFn fun _ _ => ⟨50, 10, 40⟩
    reserved := .ofFn fun y _ => y.val == 0 }

/-- Two palettes that keep their first slot for reserved pixels; one colour lies between bytes. -/
def flatSet : PaletteSet Rat where
  zero := .transparentKey
  slots := 3
  palettes := [#v[⟨0, 0, 0⟩, ⟨250, 250, 250⟩, ⟨200, 200, 200⟩], #v[⟨0, 0, 0⟩, ⟨30, 10, 40⟩, ⟨110, 10, 81 / 2⟩]]

/-- The last two rows, across the two tiles. -/
def flatWindow : Window flatCanvas.height flatCanvas.width := ⟨1, 0, Nat.lt_succ_self 2, Nat.lt_succ_self 1⟩

/-- A quarter of the colour that lies between bytes is shown as one pixel of four. -/
theorem compose_window_flat :
    Dither.Pattern.horizontal4 ∈ Dither.Family.four.members ∧ 0 < flatSet.size ∧ 0 < flatSet.candidateCount ∧
      ∃ (r : Composition Rat) (shown : Raster Pixel flatCanvas.height flatCanvas.width),
        checked (some ⟨.horizontal4, 1 / 2⟩) flatCanvas flatCanvas.tiles flatSet false = .ok r ∧ r.render = .ok shown.toLists ∧
        r.paletteMap = [[1, 1], [1, 1], [1, 1]] ∧
        flatWindow.mean (fun y x => Rgb.ofBytes (shown.get y x).color) = ⟨50, 10, 40⟩ := by
  refine ⟨by decide, by decide, by decide, ?_⟩
  obtain ⟨r, shown, hr, hrender, hwindow⟩ :=
    compose_window .four .horizontal4 (by decide) (1 / 2) flatCanvas flatSet false (by decide) (by decide)
  obtain rfl : compose (some ⟨.horizontal4, 1 / 2⟩) flatCanvas flatCanvas.tiles flatSet false = r := Except.ok.inj hr
  have hmap : (compose (some ⟨.horizontal4, 1 / 2⟩) flatCanvas flatCanvas.tiles flatSet false).paletteMap =
      [[1, 1], [1, 1], [1, 1]] := by cbv
  refine ⟨_, shown, hr, hrender, hmap, ?_⟩
  obtain ⟨m, first, second, hsearch, hfirst, hsecond, hmean⟩ := hwindow flatWindow ⟨50, 10, 40⟩ 1 (by
    rw [hmap]
    decide +kernel)
  have hcandidates : ((compose (some ⟨.horizontal4, 1 / 2⟩) flatCanvas flatCanvas.tiles flatSet false).working
      flatSet.zero).candidatesOf 1 = [⟨30, 10, 40⟩, ⟨110, 10, 40⟩] := by decide +kernel
  have hfound : Mix.search (⟨Dither.Family.four.levels, 1 / 2⟩ : MixRule Rat) (Rgb.ofBytes ⟨50, 10, 40⟩)
      [⟨30, 10, 40⟩, ⟨110, 10, 40⟩] = some ⟨150, 0, 1, 1⟩ := by cbv
  have hstored : ((compose (some ⟨.horizontal4, 1 / 2⟩) flatCanvas flatCanvas.tiles flatSet false).stored
      flatSet.zero).candidatesOf 1 = [⟨30, 10, 40⟩, ⟨110, 10, 40⟩] := by decide +kernel
  rw [hcandidates] at hsearch
  rw [hfound] at hsearch
  obtain rfl := Option.some.inj hsearch
  rw [hstored] at hfirst hsecond
  obtain rfl := Option.some.inj hfirst
  obtain rfl := Option.some.inj hsecond
  rw [hmean]
  decide +kernel

end Compose

end Tessera
