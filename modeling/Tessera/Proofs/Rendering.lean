import Mathlib
import Tessera.Proofs.Exact
import Tessera.Proofs.Slots
/-!
# The error of the rendered image

The error that a composition reports is worked out tile by tile, from the working palettes, before the numbers are put back
into their places. Rendering goes the other way round: it reads the numbers where they stand in the image, stretches the
palettes of the tiles over their pixels, and looks bytes up. `compose_mse_eq_rendered` says that the two agree, whether
there is dithering or not: the reported error is the mean squared distance between what is shown and what was to be shown.
-/

namespace Tessera

open Finset (sum_congr)

/-- A rendered pixel has the colour that stands in its slot. -/
theorem Composition.color?_of_pixelAt {α : Type} {r : Composition α} {p k : Nat} {x : Pixel} (h : r.pixelAt p k = .ok x)
    (zero : ColorZero) : (r.stored zero).color? p k = some x.color := by
  rw [pixelAt, colorAt] at h
  rw [PaletteSet.color?, stored]
  cases hp : r.palettes[p]? with
  | none => rw [hp] at h; cases h
  | some v =>
    rw [hp] at h
    dsimp only at h ⊢
    cases hk : v[k]? with
    | none => rw [hk] at h; cases h
    | some color => rw [hk] at h; cases h; rfl

/-! ## Pixels that count -/

namespace Canvas

variable (c : Canvas)

/-- The pixels that are not reserved. -/
def keptPixels : Finset (Fin c.height × Fin c.width) := {q | ¬ c.reserved.get q.1 q.2}

theorem sumKept_eq_sum_keptPixels (f : Fin c.height → Fin c.width → Rat) :
    c.sumKept f = ∑ q ∈ c.keptPixels, f q.1 q.2 := by
  rw [sumKept, keptPixels, Finset.sum_filter, Fintype.sum_prod_type]
  refine sum_congr rfl fun y _ => sum_congr rfl fun x _ => ?_
  cases c.reserved.get y x <;> rfl

theorem card_keptPixels : c.keptPixels.card = c.tiles.totalWeight := by
  have hsum := c.sumKept_eq_sum_keptPixels fun _ _ => 1
  rw [← c.totalWeight_eq, Finset.sum_const, nsmul_one] at hsum
  exact_mod_cast hsum.symm

end Canvas

/-! ## What is shown -/

namespace Compose

/-- The error of a pixel by its palette and its number is its distance from the pixel that is rendered. -/
theorem slotError_of_pixelAt {d : Option (Dithering Rat)} {c : Canvas} {ts : TileSet} {s : PaletteSet Rat}
    {cancelled : Bool} {p k : Nat} {x : Pixel} (h : (compose d c ts s cancelled).pixelAt p k = .ok x) (point : Rgb Rat) :
    slotError s.snapped point p k = (Rgb.ofBytes x.color).sqDist point := by
  have hcolor : s.toBytes.color? p k = some x.color := Composition.color?_of_pixelAt h s.zero
  rw [slotError, PaletteSet.snapped, PaletteSet.ofBytes, PaletteSet.color?_map, hcolor]
  rfl

/-- **The reported error is the error of the rendered image.** From palettes with a candidate a composition is made,
whatever the dithering, and it renders. The error that it reports is the mean, over the pixels of the image that are not
reserved, of the squared distance between the rendered colour and the colour of the canvas; it is zero when all pixels are
reserved. -/
theorem compose_mse_eq_rendered (settings : Settings Rat) (c : Canvas) (s : PaletteSet Rat) (cancelled : Bool)
    (h : 0 < s.size) (hc : 0 < s.candidateCount) :
    ∃ (r : Composition Rat) (shown : Raster Pixel c.height c.width),
      checked settings.dithering c c.tiles s cancelled = .ok r ∧ r.render = .ok shown.toLists ∧
      r.mse = (∑ q ∈ c.keptPixels,
        (Rgb.ofBytes (shown.get q.1 q.2).color : Rgb Rat).sqDist (Rgb.ofBytes (c.work.get q.1 q.2))) /
          c.keptPixels.card ∧
      (c.keptPixels = ∅ → r.mse = 0) := by
  obtain ⟨shown, hrender, hpixels⟩ := compose_pixels settings.dithering c cancelled h hc
  have hmse := compose_mse settings.dithering c cancelled h
  have himage : imageError c s.snapped (fun b => paletteOf settings.dithering c s b) (numberAt settings.dithering c s) =
      ∑ q ∈ c.keptPixels,
        (Rgb.ofBytes (shown.get q.1 q.2).color : Rgb Rat).sqDist (Rgb.ofBytes (c.work.get q.1 q.2)) := by
    rw [imageError, c.sumKept_eq_sum_keptPixels]
    exact sum_congr rfl fun q _ => slotError_of_pixelAt (hpixels q.1 q.2) _
  rw [← c.card_keptPixels, himage] at hmse
  refine ⟨compose settings.dithering c c.tiles s cancelled, shown, ?_, hrender, ?_, fun hempty => ?_⟩
  · rw [checked, if_neg (by omega)]
    rfl
  · rw [hmse]
    split
    · rename_i hzero
      rw [hzero, Nat.cast_zero, div_zero]
    · rfl
  · rw [hmse, hempty, Finset.card_empty, if_pos rfl]

/-- Settings with dithering in four levels. -/
def ditherSettings : Settings Rat :=
  ⟨1, 2, 2, 2, 8, 1, 1 / 2, .fast, .diagonal4, .shared, ⟨0, 0, 0⟩, ⟨0, 0, 0⟩, none, none, 0, 0, 0⟩

/-- A canvas of two tall tiles, with a reserved pixel in the second. -/
def ditherCanvas : Canvas where
  height := 3
  width := 2
  tiling := ⟨1, 3, 1, 2, Nat.one_pos, Nat.succ_pos 2, rfl, rfl⟩
  work := .ofFn fun y x => ⟨UInt8.ofNat (40 + 60 * x), UInt8.ofNat (20 * y), 40⟩
  reserved := .ofFn fun y x => y.val == 0 && x.val == 1

/-- Two palettes with a common colour; one colour lies between bytes. -/
def ditherSet : PaletteSet Rat := ⟨.shared, 2, [#v[⟨30, 0, 40⟩, ⟨70, 20, 81 / 2⟩], #v[⟨30, 0, 40⟩, ⟨110, 30, 40⟩]]⟩

theorem compose_mse_eq_rendered_dithered :
    0 < ditherSet.size ∧ 0 < ditherSet.candidateCount ∧
      ∃ (r : Composition Rat) (shown : Raster Pixel 3 2),
        checked ditherSettings.dithering ditherCanvas ditherCanvas.tiles ditherSet false = .ok r ∧
        r.render = .ok shown.toLists ∧ r.tilePalettes = [[0, 1]] ∧ r.colorIndices = [[1, 0], [0, 1], [0, 1]] ∧
        r.mse = 780 ∧ ditherCanvas.keptPixels.card = 5 ∧
        r.mse = (∑ q ∈ ditherCanvas.keptPixels,
          (Rgb.ofBytes (shown.get q.1 q.2).color : Rgb Rat).sqDist (Rgb.ofBytes (ditherCanvas.work.get q.1 q.2))) /
            ditherCanvas.keptPixels.card := by
  refine ⟨by decide, by decide, ?_⟩
  obtain ⟨r, shown, hr, hrender, hmse, -⟩ :=
    compose_mse_eq_rendered ditherSettings ditherCanvas ditherSet false (by decide) (by decide)
  obtain rfl : compose ditherSettings.dithering ditherCanvas ditherCanvas.tiles ditherSet false = r := Except.ok.inj hr
  exact ⟨_, shown, hr, hrender, by cbv, by cbv, by cbv, by decide +kernel, hmse⟩

end Compose

end Tessera
