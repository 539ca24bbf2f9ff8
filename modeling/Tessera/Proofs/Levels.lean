import Mathlib
import Tessera.Level
/-!
# The nearest level

In exact arithmetic a snapped value is a level, the values that snapping leaves alone are the levels, and no level is
nearer to a value than the one that it is snapped to. What is true of channels is true of colours, since squared distances
add up over the channels.
-/

namespace Tessera

namespace Level

/-- A multiple of the step. -/
def IsLevel (step x : Rat) : Prop := ∃ k : Int, x = k * step

theorem step_pos {bits : Nat} (h : 1 ≤ bits) : (0 : Rat) < step bits := by
  have hpow : 2 ≤ Nat.pow 2 bits := (Nat.pow_le_pow_right (by omega) h : 2 ^ 1 ≤ 2 ^ bits)
  have hden : (0 : Int) < (Nat.pow 2 bits : Nat) - 1 := by omega
  exact div_pos (by norm_num [Scalar.ofNat, Scalar.ofInt]) (Int.cast_pos.2 hden)

variable {step : Rat}

theorem snapTo_rat (step x : Rat) : snapTo step x = (⌊x / step + 1 / 2⌋ : Rat) * step := rfl

theorem isLevel_snapTo (step x : Rat) : IsLevel step (snapTo step x) := ⟨_, snapTo_rat step x⟩

/-- A value is at most half a step away from its level. -/
theorem abs_sub_snapTo_le (hs : 0 < step) (x : Rat) : |x - snapTo step x| ≤ step / 2 := by
  have hle := Int.floor_le (x / step + 1 / 2)
  have hlt := Int.lt_floor_add_one (x / step + 1 / 2)
  have hx : x = x / step * step := (div_mul_cancel₀ x hs.ne').symm
  have hdiff : x - snapTo step x = (x / step - ⌊x / step + 1 / 2⌋) * step := by
    rw [snapTo_rat]
    nth_rewrite 1 [hx]
    ring
  have hhalf : |x / step - ⌊x / step + 1 / 2⌋| ≤ 1 / 2 := abs_le.2 ⟨by linarith, by linarith⟩
  calc |x - snapTo step x| = |x / step - ⌊x / step + 1 / 2⌋| * step := by rw [hdiff, abs_mul, abs_of_pos hs]
    _ ≤ 1 / 2 * step := mul_le_mul_of_nonneg_right hhalf hs.le
    _ = step / 2 := by ring

/-- Two different levels are at least a step apart. -/
theorem IsLevel.step_le_abs_sub (hs : 0 < step) {x y : Rat} (hx : IsLevel step x) (hy : IsLevel step y) (h : x ≠ y) :
    step ≤ |x - y| := by
  obtain ⟨i, rfl⟩ := hx
  obtain ⟨j, rfl⟩ := hy
  have hij : i - j ≠ 0 := sub_ne_zero.2 fun hij => h (by rw [hij])
  have hone : (1 : Rat) ≤ |((i - j : Int) : Rat)| := by exact_mod_cast Int.one_le_abs hij
  rw [← sub_mul, abs_mul, abs_of_pos hs, ← Int.cast_sub]
  nlinarith

/-- **Nearest level.** No level is nearer to a value than the one that the value is snapped to. -/
theorem abs_sub_snapTo_le_abs_sub (hs : 0 < step) (x : Rat) {y : Rat} (hy : IsLevel step y) :
    |x - snapTo step x| ≤ |x - y| := by
  by_cases h : snapTo step x = y
  · rw [h]
  have happart := (isLevel_snapTo step x).step_le_abs_sub hs hy h
  have hhalf := abs_sub_snapTo_le hs x
  have htriangle := abs_sub_le (snapTo step x) x y
  rw [abs_sub_comm (snapTo step x) x] at htriangle
  linarith

theorem snapTo_eq_self_iff (hs : 0 < step) {x : Rat} : snapTo step x = x ↔ IsLevel step x := by
  constructor
  · intro h
    exact h ▸ isLevel_snapTo step x
  · intro h
    have hzero := abs_sub_snapTo_le_abs_sub hs x h
    rw [sub_self, abs_zero] at hzero
    exact (sub_eq_zero.1 (abs_eq_zero.1 (le_antisymm hzero (abs_nonneg _)))).symm

end Level

/-! ## Colours -/

namespace Rgb

variable {step : Rat}

theorem map_snapTo_eq_self_iff (hs : 0 < step) {c : Rgb Rat} :
    c.map (Level.snapTo step) = c ↔ Level.IsLevel step c.r ∧ Level.IsLevel step c.g ∧ Level.IsLevel step c.b := by
  rw [← Level.snapTo_eq_self_iff hs, ← Level.snapTo_eq_self_iff hs, ← Level.snapTo_eq_self_iff hs]
  obtain ⟨r, g, b⟩ := c
  simp [map]

theorem map_snapTo_snapTo (hs : 0 < step) (c : Rgb Rat) :
    (c.map (Level.snapTo step)).map (Level.snapTo step) = c.map (Level.snapTo step) :=
  (map_snapTo_eq_self_iff hs).2 ⟨Level.isLevel_snapTo _ _, Level.isLevel_snapTo _ _, Level.isLevel_snapTo _ _⟩

/-- No colour of levels is nearer to a colour than its snapped colour. -/
theorem sqDist_map_snapTo_le (hs : 0 < step) (m : Rgb Rat) {c : Rgb Rat} (hc : c.map (Level.snapTo step) = c) :
    m.sqDist (m.map (Level.snapTo step)) ≤ m.sqDist c := by
  obtain ⟨hr, hg, hb⟩ := (map_snapTo_eq_self_iff hs).1 hc
  have hr := abs_le_iff_mul_self_le.1 (Level.abs_sub_snapTo_le_abs_sub hs m.r hr)
  have hg := abs_le_iff_mul_self_le.1 (Level.abs_sub_snapTo_le_abs_sub hs m.g hg)
  have hb := abs_le_iff_mul_self_le.1 (Level.abs_sub_snapTo_le_abs_sub hs m.b hb)
  exact add_le_add (add_le_add hr hg) hb

end Rgb

end Tessera
