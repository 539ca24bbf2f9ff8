import Mathlib
import Tessera.Proofs.BitDepth
import Tessera.Proofs.Extension
import Tessera.Proofs.Floats
/-!
# Padding

Lengthening palettes repeats their last colour. A scan for the nearest colour takes the first of equals, so it never stops at
a copy (`Pick.least?_append_replicate`): all that this asks of scalars is that none is less than itself, which holds of
rational numbers and of floating-point numbers, those that are no numbers included. So without dithering the numbers of
pixels, the palettes of tiles and the errors are those of the palettes as they were (`Compose.padding_invisible`).
-/

namespace Tessera

/-! ## Copies of the last value -/

/-- No floating-point number is less than itself. -/
instance Floats.irrefl_lt : Std.Irrefl (α := Float) (· < ·) where
  irrefl x hlt := by
    rw [Floats.lt_iff_compare] at hlt
    cases hx : Floats.parts x with
    | infinity s =>
      rw [hx] at hlt
      cases s <;> cases hlt
    | notANumber =>
      rw [hx] at hlt
      cases hlt
    | zero s =>
      rw [hx] at hlt
      cases hlt
    | finite s m e hm =>
      have hcompare := Floats.compare_eq (Floats.parts_canonical x) (Floats.parts_canonical x) (by rw [hx]; rfl) (by rw [hx]; rfl)
      rw [hcompare, compare_eq_iff_eq.2 rfl] at hlt
      cases hlt

namespace Pick

variable {α : Type} [Scalar α] [Std.Irrefl (α := α) (· < ·)]

theorem isLess_self (x : α) : isLess x x = false := by
  simp [isLess, spoils, Std.Irrefl.irrefl x]

/-- Copies of the last value of a list do not change how a scan of it ends. -/
theorem leastFrom_append_replicate {xs : List α} {x : α} (h : xs.getLast? = some x) (i place : Nat) (best : α) (n : Nat) :
    leastFrom i place best (xs ++ List.replicate n x) = leastFrom i place best xs := by
  induction xs generalizing i place best with
  | nil => cases h
  | cons y ys ih =>
    rw [List.cons_append, leastFrom, leastFrom]
    cases ys with
    | cons z zs =>
      have hlast : (z :: zs).getLast? = some x := by simpa using h
      rw [ih hlast, ih hlast]
    | nil =>
      -- the last value: the copies meet it as the best value, or a best value that it did not replace
      obtain rfl : y = x := by simpa using h
      by_cases hless : isLess y best = true
      · rw [if_pos hless, if_pos hless]
        exact leastFrom_replicate (isLess_self y) _ _ n
      · rw [if_neg hless, if_neg hless]
        exact leastFrom_replicate (Bool.eq_false_iff.2 hless) _ _ n

theorem least?_append_replicate {xs : List α} {x : α} (h : xs.getLast? = some x) (n : Nat) :
    least? (xs ++ List.replicate n x) = least? xs := by
  cases xs with
  | nil => cases h
  | cons y ys =>
    rw [List.cons_append, least?, least?]
    cases ys with
    | cons z zs => rw [leastFrom_append_replicate (by simpa using h)]
    | nil =>
      obtain rfl : y = x := by simpa using h
      rw [List.nil_append, leastFrom_replicate (isLess_self y)]
      rfl

end Pick

/-! ## Padded palettes -/

namespace PaletteSet

section

variable {α : Type} (s : PaletteSet α)

theorem map_padded {β : Type} (f : Rgb α → Rgb β) (n : Nat) : (s.padded n).map f = (s.map f).padded n := by
  have hmap : (s.map f).slots = s.slots := rfl
  by_cases hslots : 0 < s.slots
  · rw [padded, dif_pos hslots, padded, dif_pos (hmap ▸ hslots)]
    simp only [map, List.map_map]
    congr 1
    refine List.map_congr_left ?_
    intro v _
    rw [Function.comp_apply, Function.comp_apply, Vector.map_append, Vector.map_replicate]
    simp only [Vector.getElem_map]
    rfl
  · rw [padded, dif_neg hslots, padded, dif_neg (hmap ▸ hslots)]

theorem color?_padded (n p : Nat) {k : Nat} (hk : k < s.slots) : (s.padded n).color? p k = s.color? p k := by
  rw [color?_eq_toLists, color?_eq_toLists, toLists_padded, List.getElem?_map]
  cases hcs : s.toLists[p]? with
  | none => rfl
  | some cs =>
    obtain ⟨v, -, rfl⟩ := List.mem_map.1 (List.mem_of_getElem? hcs)
    exact List.getElem?_append_left (by simpa using hk)

end

variable {α : Type} [Scalar α] (s : PaletteSet α)

theorem snapped_padded (n : Nat) : (s.padded n).snapped = s.snapped.padded n := by
  rw [snapped, toBytes, map_padded, ofBytes, map_padded]
  rfl

variable [Std.Irrefl (α := α) (· < ·)] {s}

/-- A scan of the candidates of a padded palette ends as it did before. -/
theorem least?_candidatesOf_padded (hc : 0 < s.candidateCount) (n p : Nat) (x : Rgb α) :
    Pick.least? (((s.padded n).candidatesOf p).map x.sqDist) = Pick.least? ((s.candidatesOf p).map x.sqDist) := by
  by_cases hp : p < s.size
  · obtain ⟨c, hlast, hpadded⟩ := s.candidatesOf_padded n hp hc
    rw [hpadded, List.map_append, List.map_replicate]
    exact Pick.least?_append_replicate (by rw [List.getLast?_map, hlast]; rfl) _
  · have hnone : ∀ t : PaletteSet α, t.size = s.size → t.candidatesOf p = [] := by
      intro t ht
      rw [candidatesOf_eq_elim, List.getElem?_eq_none (by rw [← ht] at hp; exact not_lt.1 hp)]
      rfl
    rw [hnone _ (s.padded_size n), hnone s rfl]

end PaletteSet

/-! ## Errors and numbers -/

section

variable {α : Type} [Scalar α] [Std.Irrefl (α := α) (· < ·)] {s : PaletteSet α} (hc : 0 < s.candidateCount) (n : Nat)
include hc

namespace Fit

theorem errors_none_padded (ts : TileSet) : errors none ts (s.padded n) = errors none ts s := by
  refine errors_congr none ts (s.padded_size n) ?_
  intro p _ x
  rw [cost, cost, nearest?, nearest?, PaletteSet.least?_candidatesOf_padded hc]

theorem meanError_none_padded (ts : TileSet) : meanError none ts (s.padded n) = meanError none ts s := by
  rw [meanError, meanError, assign, assign, errors_none_padded hc]

end Fit

namespace Compose

theorem indices_none_padded (spots : List (Nat × Spot)) : indices none (s.padded n) spots = indices none s spots := by
  have hplain : ∀ p x, plainIndex (s.padded n) p x = plainIndex s p x := by
    intro p x
    rw [plainIndex, plainIndex, Pick.argLeast, Pick.argLeast, PaletteSet.least?_candidatesOf_padded hc,
      PaletteSet.firstCandidate, PaletteSet.firstCandidate, PaletteSet.padded_zero]
  have hspan : spanIndices none (s.padded n) = spanIndices none s := by
    funext span
    exact List.map_congr_left fun q _ => hplain q.1 q.2
  rw [indices, indices, pixelIndicesBy, pixelIndicesBy, hspan]

end Compose

end

namespace Compose

section

variable {α : Type} [Scalar α] {s : PaletteSet α}

/-- The error of pixels with numbers of slots that there were depends on these alone. -/
theorem meanError_padded (n : Nat) (spots : List (Nat × Spot)) {numbers : List Nat} (h : ∀ k ∈ numbers, k < s.slots) :
    meanError (s.padded n) spots numbers = meanError s spots numbers := by
  have hpixels : ((spots.zip numbers).filter fun q => !q.1.2.reserved).map (fun q => pixelError (s.padded n) q.1.1 q.1.2 q.2) =
      ((spots.zip numbers).filter fun q => !q.1.2.reserved).map fun q => pixelError s q.1.1 q.1.2 q.2 := by
    refine List.map_congr_left ?_
    intro q hq
    have hk : q.2 ∈ numbers := (List.of_mem_zip (List.mem_of_mem_filter hq)).2
    rw [pixelError, pixelError, s.color?_padded n q.1.1 (h q.2 hk)]
  simp only [meanError]
  rw [hpixels]

variable {height width : Nat}

theorem mem_indices_lt {rule : Option (MixRule α)} (hc : 0 < s.candidateCount) {spots : List (Nat × Spot)}
    (h : ∀ q ∈ spots, q.1 < s.size) : ∀ k ∈ indices rule s spots, k < s.slots := by
  rw [indices_eq_map rule s spots h]
  intro k hk
  obtain ⟨q, hq, rfl⟩ := List.mem_map.1 hk
  exact number_lt q.2 (h q hq) hc

theorem mem_placed_lt {bound : Nat} (hbound : 0 < bound) (t : Tiling height width) {numbers : List Nat}
    (h : ∀ k ∈ numbers, k < bound) : ∀ row ∈ (placed t numbers.toArray).toLists, ∀ k ∈ row, k < bound := by
  intro row hrow k hk
  rw [Raster.toLists_eq] at hrow
  obtain ⟨y, rfl⟩ := List.mem_ofFn.1 hrow
  obtain ⟨x, rfl⟩ := List.mem_ofFn.1 hk
  simp only [placed, Tiling.unblocks, Raster.get_ofFn, Array.getD_eq_getD_getElem?, List.getElem?_toArray]
  cases hnumber : numbers[(t.blockIndex y x).val * t.area + (t.blockOffset y x).val]? with
  | none => exact hbound
  | some k => exact h k (List.mem_of_getElem? hnumber)

end

/-! ## Compositions -/

variable {α : Type} [Scalar α] (c : Canvas) (ts : TileSet) (s : PaletteSet α) (cancelled : Bool)

/-- The pixels of a canvas, each with the palette that its tile takes without dithering. -/
def plainSpots : List (Nat × Spot) := spots none c.tiling c.work c.reserved (Fit.assignment none ts s.snapped)

theorem compose_none_tilePalettes :
    (compose none c ts s cancelled).tilePalettes = (List.range c.tiling.rows).map fun r =>
      ((Fit.assignment none ts s.snapped).drop (r * c.tiling.cols)).take c.tiling.cols := rfl

theorem compose_none_colorIndices :
    (compose none c ts s cancelled).colorIndices =
      (placed c.tiling (indices none s.snapped (plainSpots c ts s)).toArray).toLists := rfl

theorem compose_none_mse :
    (compose none c ts s cancelled).mse =
      meanError s.snapped (plainSpots c ts s) (indices none s.snapped (plainSpots c ts s)) := rfl

variable {s}

theorem mem_plainSpots_lt (h : 0 < s.size) : ∀ q ∈ plainSpots c ts s, q.1 < s.snapped.size :=
  fun q hq => Fit.assignment_lt none ts (by simpa using h) q.1 (mem_spots hq)

theorem checked_eq_ok {d : Option (Dithering α)} (h : 0 < s.size) (hc : 0 < s.candidateCount) :
    checked d c ts s cancelled = .ok (compose d c ts s cancelled) := by
  rw [checked, if_neg (by omega)]
  rfl

section

variable [Std.Irrefl (α := α) (· < ·)] (hc : 0 < s.candidateCount) (n : Nat)
include hc

theorem assignment_snapped_padded :
    Fit.assignment none ts (s.padded n).snapped = Fit.assignment none ts s.snapped := by
  rw [Fit.assignment, Fit.assign, s.snapped_padded, Fit.errors_none_padded (by simpa using hc)]
  rfl

theorem plainSpots_padded : plainSpots c ts (s.padded n) = plainSpots c ts s := by
  rw [plainSpots, assignment_snapped_padded ts hc]
  rfl

theorem indices_snapped_padded (spots : List (Nat × Spot)) :
    indices none (s.padded n).snapped spots = indices none s.snapped spots := by
  rw [s.snapped_padded]
  exact indices_none_padded (by simpa using hc) n spots

end

/-- **Padding does not show without dithering.** Lengthened palettes have the greater number of slots and keep those that
there were. They have the same error, and where there are palettes to compose with, a composition with them gives the tiles
the same palettes and the pixels the same numbers, none of them that of a new slot, at the same error. -/
theorem padding_invisible [Std.Irrefl (α := α) (· < ·)] (n : Int) (hc : 0 < s.candidateCount) :
    ((s.padded n.toNat).slots : Int) = max n s.slots ∧
    (∀ p k, k < s.slots → (s.padded n.toNat).color? p k = s.color? p k) ∧
    Fit.meanError none ts (s.padded n.toNat) = Fit.meanError none ts s ∧
    (s.size = 0 → checked none c ts (s.padded n.toNat) cancelled = .error .noColours ∧
      checked none c ts s cancelled = .error .noColours) ∧
    (0 < s.size → ∃ r t, checked none c ts (s.padded n.toNat) cancelled = .ok r ∧ checked none c ts s cancelled = .ok t ∧
      r.tilePalettes = t.tilePalettes ∧ r.colorIndices = t.colorIndices ∧ r.mse = t.mse ∧
      ∀ row ∈ r.colorIndices, ∀ k ∈ row, k < s.slots) := by
  have hslots : s.firstCandidate < s.slots := PaletteSet.firstCandidate_lt_slots hc
  have hpadded : (s.padded n.toNat).slots = max n.toNat s.slots := s.padded_slots n.toNat (by omega)
  have hcount : 0 < (s.padded n.toNat).candidateCount := by
    rw [PaletteSet.candidateCount, PaletteSet.firstCandidate, PaletteSet.padded_zero, hpadded]
    exact Nat.sub_pos_of_lt (lt_of_lt_of_le hslots (le_max_right _ _))
  refine ⟨by rw [hpadded]; omega, fun p k hk => s.color?_padded n.toNat p hk, Fit.meanError_none_padded hc n.toNat ts, ?_, ?_⟩
  · intro hsize
    rw [checked, checked, if_pos (Or.inl hsize), if_pos (Or.inl (by rw [PaletteSet.padded_size, hsize]))]
    exact ⟨rfl, rfl⟩
  · intro hsize
    have hlt : ∀ k ∈ indices none s.snapped (plainSpots c ts s), k < s.snapped.slots :=
      mem_indices_lt (by simpa using hc) (mem_plainSpots_lt c ts hsize)
    refine ⟨_, _, checked_eq_ok c ts cancelled (by rw [PaletteSet.padded_size]; exact hsize) hcount,
      checked_eq_ok c ts cancelled hsize hc, ?_, ?_, ?_, ?_⟩
    · rw [compose_none_tilePalettes, compose_none_tilePalettes, assignment_snapped_padded ts hc]
    · rw [compose_none_colorIndices, compose_none_colorIndices, plainSpots_padded c ts hc, indices_snapped_padded hc]
    · rw [compose_none_mse, compose_none_mse, plainSpots_padded c ts hc, indices_snapped_padded hc, s.snapped_padded,
        meanError_padded n.toNat _ hlt]
    · rw [compose_none_colorIndices, plainSpots_padded c ts hc, indices_snapped_padded hc]
      exact mem_placed_lt (by omega) c.tiling hlt

/-- Palettes in floating-point numbers. The last colour of the first one is the nearest for some pixels. -/
def driftSet : PaletteSet Float where
  zero := .transparentAlpha
  slots := 3
  palettes := [#v[⟨0, 0, 0⟩, ⟨170, 0, 40⟩, ⟨120, 90, 40⟩], #v[⟨0, 0, 0⟩, ⟨30, 0, 40⟩, ⟨30, 45.5, 0⟩]]

/-- Three copies of the last colours are never asked for. -/
theorem padding_invisible_drift :
    0 < driftSet.candidateCount ∧ 0 < driftSet.size ∧ (driftSet.padded 6).slots = 6 ∧
      ∃ r, checked none smallCanvas smallCanvas.tiles (driftSet.padded 6) false = .ok r ∧
        r.tilePalettes = [[1, 0]] ∧ r.colorIndices = [[0, 1, 1, 1], [2, 2, 2, 2]] := by
  have hc : 0 < driftSet.candidateCount := by decide
  have hsize : 0 < driftSet.size := by decide
  obtain ⟨hslots, -, -, -, hcomposed⟩ := padding_invisible smallCanvas smallCanvas.tiles false 6 hc
  obtain ⟨r, t, hr, ht, hpalettes, hnumbers, -, -⟩ := hcomposed hsize
  obtain rfl : compose none smallCanvas smallCanvas.tiles driftSet false = t := Except.ok.inj ht
  have hplain : (compose none smallCanvas smallCanvas.tiles driftSet false).tilePalettes = [[1, 0]] ∧
      (compose none smallCanvas smallCanvas.tiles driftSet false).colorIndices = [[0, 1, 1, 1], [2, 2, 2, 2]] := by
    decide +kernel
  exact ⟨hc, hsize, by exact_mod_cast hslots, r, hr, hpalettes.trans hplain.1, hnumbers.trans hplain.2⟩

end Compose

end Tessera
