import Mathlib
import Tessera.Proofs.Floats
/-!
# Rounding

A mantissa with a round and a sticky bit tells where a number lies between two whole ones (`Places`), and shifting it to
the right keeps telling where the halved number lies. So quotients, products and whole numbers, which are all rounded in
this way, are the floating-point numbers nearest to their exact values (`rounded_div`, `rounded_mul`, `rounded_round`). A
whole number below `2 ^ 53` is its own nearest one, and rounding does not carry a number past a whole one.
-/

namespace Tessera.Floats

open Float.Model (Format UnpackedFloat totalExponent)
open Float.Model.UnpackedFloat

/-! ## Mantissas with two more bits -/

/-- What an accuracy says about the rest behind a mantissa. -/
def Leaves : Accuracy → Rat → Prop
  | .exact, r => r = 0
  | .inexact .lt, r => 0 < r ∧ r < 1 / 2
  | .inexact .eq, r => r = 1 / 2
  | .inexact .gt, r => 1 / 2 < r ∧ r < 1

/-- A mantissa with a round and a sticky bit places a number: the rest behind the mantissa is what the bits say. -/
def Places (em : ExtendedMantissa) (x : Rat) : Prop := Leaves em.accuracy (x - em.mantissa)

theorem places_ofMantissaAndAccuracy {m : Nat} {a : Accuracy} {x : Rat} :
    Places (.ofMantissaAndAccuracy m a) x ↔ Leaves a (x - m) := by
  cases a with
  | exact => rfl
  | inexact o => cases o <;> rfl

/-- A remainder says what it leaves. -/
theorem leaves_accuracyOfFraction {r d : Nat} (hr : r < d) : Leaves (accuracyOfFraction r d) (r / d) := by
  have hd : (0 : Rat) < d := by exact_mod_cast (by omega : 0 < d)
  unfold accuracyOfFraction
  by_cases hzero : r = 0
  · rw [if_pos hzero, hzero]
    simp [Leaves]
  · rw [if_neg hzero]
    have hrpos : (0 : Rat) < r := by exact_mod_cast Nat.pos_of_ne_zero hzero
    rcases lt_trichotomy (2 * r) d with hcmp | hcmp | hcmp
    · rw [compare_lt_iff_lt.2 hcmp]
      refine ⟨by positivity, ?_⟩
      rw [div_lt_div_iff₀ hd two_pos]
      exact_mod_cast (by omega : r * 2 < 1 * d)
    · rw [compare_eq_iff_eq.2 hcmp]
      refine (div_eq_div_iff hd.ne' two_ne_zero).2 ?_
      exact_mod_cast (by omega : r * 2 = 1 * d)
    · rw [compare_gt_iff_gt.2 hcmp]
      refine ⟨?_, (div_lt_one hd).2 (by exact_mod_cast hr)⟩
      rw [div_lt_div_iff₀ two_pos hd]
      exact_mod_cast (by omega : 1 * d < r * 2)

theorem places_exact (m : Nat) : Places (.ofMantissaAndAccuracy m .exact) m :=
  places_ofMantissaAndAccuracy.2 (sub_self _)

theorem natCast_div_eq (n : Nat) {d : Nat} (hd : 0 < d) : (n : Rat) / d = (n / d : Nat) + (n % d : Nat) / d := by
  have hdpos : (0 : Rat) < d := by exact_mod_cast hd
  rw [div_eq_iff hdpos.ne', add_mul, div_mul_cancel₀ _ hdpos.ne']
  exact_mod_cast (Nat.div_add_mod' n d).symm

/-- A quotient lies where its remainder says. -/
theorem places_div (n : Nat) {d : Nat} (hd : 0 < d) :
    Places (.ofMantissaAndAccuracy (n / d) (accuracyOfFraction (n % d) d)) (n / d : Rat) := by
  rw [places_ofMantissaAndAccuracy, natCast_div_eq n hd, add_sub_cancel_left]
  exact leaves_accuracyOfFraction (Nat.mod_lt n hd)

/-- Shifting by one place halves. -/
theorem Places.shiftRightOne {em : ExtendedMantissa} {x : Rat} (h : Places em x) : Places em.shiftRightOne (x / 2) := by
  obtain ⟨m, r, s⟩ := em
  have hm : (m : Rat) = 2 * (m / 2 : Nat) + (m % 2 : Nat) := by exact_mod_cast (Nat.div_add_mod m 2).symm
  unfold Places ExtendedMantissa.shiftRightOne at *
  rcases Nat.mod_two_eq_zero_or_one m with hmod | hmod <;> rw [hmod] at hm ⊢ <;> push_cast at hm <;>
    cases r <;> cases s <;>
    simp only [ExtendedMantissa.accuracy, Leaves, Nat.reduceBNe, Bool.or_self, Bool.or_true, Bool.or_false] at h ⊢ <;>
    first | linarith | exact ⟨by linarith, by linarith⟩

/-- Shifting by some places divides by a power of two. -/
theorem Places.shiftRight {em : ExtendedMantissa} {x : Rat} (h : Places em x) (n : Nat) : Places (em >>> n) (x / 2 ^ n) := by
  induction n with
  | zero =>
    rw [pow_zero, div_one]
    exact h
  | succ n ih =>
    rw [pow_succ, ← div_div]
    exact ih.shiftRightOne

theorem Places.bounds {em : ExtendedMantissa} {x : Rat} (h : Places em x) : em.mantissa ≤ x ∧ x < em.mantissa + 1 := by
  obtain ⟨m, r, s⟩ := em
  unfold Places at h
  cases r <;> cases s <;> simp only [ExtendedMantissa.accuracy, Leaves] at h <;>
    exact ⟨by linarith, by linarith⟩

/-- The rounded mantissa is nearest. -/
theorem Places.rounded {em : ExtendedMantissa} {x : Rat} (h : Places em x) : |x - em.roundedMantissa| ≤ 1 / 2 := by
  obtain ⟨m, r, s⟩ := em
  have hmod : ((m % 2 : Nat) : Rat) ≤ 1 := by exact_mod_cast (by omega : m % 2 ≤ 1)
  have hnonneg : (0 : Rat) ≤ (m % 2 : Nat) := by positivity
  unfold Places at h
  rw [abs_le]
  cases r <;> cases s <;>
    simp only [ExtendedMantissa.roundedMantissa, ExtendedMantissa.accuracy, Accuracy.roundToNearestEven, Leaves,
      Nat.cast_add, Nat.cast_one] at h ⊢ <;>
    exact ⟨by linarith, by linarith⟩

/-! ## Rounding -/

/-- A mantissa over a power of two is nearest to a number. The number has fifty-three bits over that power, or fewer over
the least one. -/
structure Nearest (m : Nat) (p : Int) (x : Rat) : Prop where
  near : |x / 2 ^ p - m| ≤ 1 / 2
  least : -1074 ≤ p
  fine : p = -1074 ∨ 2 ^ 52 ≤ x / 2 ^ p
  below : x / 2 ^ p < 2 ^ 53

namespace Nearest

variable {m k : Nat} {p : Int} {x : Rat}

/-- Whole bounds of a number are bounds of the mantissa that it is rounded to. -/
theorem le_mantissa (h : Nearest m p x) (hk : k ≤ x / 2 ^ p) : k ≤ m := by
  have hnear := (abs_le.1 h.near).2
  have hlt : (k : Rat) < m + 1 := by linarith
  exact Nat.lt_succ_iff.1 (by exact_mod_cast hlt)

theorem mantissa_le (h : Nearest m p x) (hk : x / 2 ^ p ≤ k) : m ≤ k := by
  have hnear := (abs_le.1 h.near).1
  have hlt : (m : Rat) < k + 1 := by linarith
  exact Nat.lt_succ_iff.1 (by exact_mod_cast hlt)

theorem mantissa_le_two_pow (h : Nearest m p x) : m ≤ 2 ^ 53 := h.mantissa_le (by exact_mod_cast h.below.le)

theorem full (h : Nearest m p x) : 2 ^ 52 ≤ m ∨ p = -1074 :=
  h.fine.symm.imp_left fun hfine => h.le_mantissa (by exact_mod_cast hfine)

/-- A bound of a number bounds the exponent that it is rounded to. -/
theorem exponent_le (h : Nearest m p x) {n : Int} (hn : -1021 ≤ n) (hx : x < 2 ^ n) : p + 53 ≤ n := by
  rcases h.fine with rfl | hfine
  · omega
  · rw [le_div_iff₀ (by positivity), ← zpow_natCast, ← zpow_add₀ two_ne_zero] at hfine
    have := (zpow_lt_zpow_iff_right₀ one_lt_two).1 (hfine.trans_lt hx)
    push_cast at this
    omega

end Nearest

theorem targetExponent_eq (t : Int) : Format.binary64.targetExponent t = max (t - 53) (-1074) := rfl

theorem mantissa_ofMantissaAndAccuracy (k : Nat) (a : Accuracy) :
    (ExtendedMantissa.ofMantissaAndAccuracy k a).mantissa = k := by
  cases a with
  | exact => rfl
  | inexact o => cases o <;> rfl

/-- The first shift leaves a mantissa of fifty-three bits, or fewer under the least exponent. -/
theorem nearest_shiftToTargetExponent {k : Nat} {e : Int} {a : Accuracy} {x : Rat}
    (hplaces : Places (.ofMantissaAndAccuracy k a) x) (he : e ≤ max (k.log2 + 1 + e - 53) (-1074)) :
    Nearest (shiftToTargetExponent Format.binary64 k e a).1.roundedMantissa
      (shiftToTargetExponent Format.binary64 k e a).2 (x * 2 ^ e) := by
  obtain ⟨hlower, hupper⟩ := hplaces.bounds
  rw [mantissa_ofMantissaAndAccuracy] at hlower hupper
  unfold shiftToTargetExponent shiftToExponent totalExponent
  dsimp only
  rw [targetExponent_eq]
  -- by `he` the shift is not cut off at zero, so the exponent becomes the one that is aimed at
  generalize hn : (max ((k.log2 : Int) + 1 + e - 53) (-1074) - e).toNat = n
  have hx : x * 2 ^ e / 2 ^ (e + (n : Int)) = x / 2 ^ n := by
    rw [zpow_add₀ two_ne_zero, zpow_natCast]
    field_simp
  have hshift := hplaces.shiftRight n
  rw [← hx] at hshift
  refine ⟨hshift.rounded, by omega, ?_, ?_⟩
  · by_cases hleast : e + (n : Int) = -1074
    · exact .inl hleast
    · have hk : k ≠ 0 := by
        rintro rfl
        rw [Nat.log2_zero] at *
        omega
      have hle : (2 : Rat) ^ (52 + n) ≤ k := by
        rw [show 52 + n = k.log2 by omega]
        exact_mod_cast Nat.log2_self_le hk
      rw [hx, le_div_iff₀ (by positivity), ← pow_add]
      exact .inr (hle.trans hlower)
  · have hlt : (k : Rat) + 1 ≤ 2 ^ (53 + n) := by
      have hlog : k < 2 ^ (k.log2 + 1) := Nat.lt_log2_self
      have hpow : 2 ^ (k.log2 + 1) ≤ 2 ^ (53 + n) := Nat.pow_le_pow_right two_pos (by omega)
      exact_mod_cast hlog.trans_le hpow
    rw [hx, div_lt_iff₀ (by positivity), ← pow_add]
    exact hupper.trans_le hlt

/-- The number of a sign, a mantissa that may be zero, and an exponent. -/
def signed (s : Sign) (m : Nat) (e : Int) : UnpackedFloat :=
  if h : m = 0 then .zero s else .finite s m e (Nat.pos_of_ne_zero h)

theorem isFinite_signed (s : Sign) (m : Nat) (e : Int) : (signed s m e).isFinite := by
  unfold signed
  split <;> rfl

theorem ratio_signed (s : Sign) (m : Nat) (e : Int) : ratio (signed s m e) = s.apply m * 2 ^ e := by
  unfold signed
  split
  · rename_i h
    cases s <;> simp [ratio, h, Sign.apply]
  · rfl

theorem canonical_signed (s : Sign) {m : Nat} {e : Int} (h : InFormat m e) (he : e ≤ 971) : Canonical (signed s m e) := by
  unfold signed
  split
  · trivial
  · exact ⟨h, he⟩

/-- The second shift makes up for a mantissa that has been rounded up to one bit more. -/
theorem shiftToTargetExponent_exact {m : Nat} {p : Int} (hle : m ≤ 2 ^ 53) (hleast : -1074 ≤ p) :
    shiftToTargetExponent Format.binary64 m p .exact =
      if m < 2 ^ 53 then (.ofMantissaAndAccuracy m .exact, p) else (.ofMantissaAndAccuracy (2 ^ 52) .exact, p + 1) := by
  unfold shiftToTargetExponent shiftToExponent totalExponent
  dsimp only
  rw [targetExponent_eq]
  by_cases hlt : m < 2 ^ 53
  · have hlog : m.log2 < 53 := by
      by_cases hzero : m = 0
      · rw [hzero, Nat.log2_zero]
        decide
      · exact (Nat.log2_lt hzero).2 hlt
    have hshift : (max ((m.log2 : Int) + 1 + p - 53) (-1074) - p).toNat = 0 := by omega
    rw [hshift, if_pos hlt, Nat.cast_zero, add_zero]
    rfl
  · obtain rfl : m = 2 ^ 53 := le_antisymm hle (not_lt.1 hlt)
    have hshift : (max (((2 ^ 53 : Nat).log2 : Int) + 1 + p - 53) (-1074) - p).toNat = 1 := by
      rw [Nat.log2_two_pow]
      omega
    rw [hshift, if_neg hlt]
    rfl

/-- The second shift keeps the number and leaves it canonical. -/
theorem signed_shiftToTargetExponent (s : Sign) {m : Nat} {p : Int} (hle : m ≤ 2 ^ 53) (hleast : -1074 ≤ p)
    {z : ExtendedMantissa × Int} (hz : shiftToTargetExponent Format.binary64 m p .exact = z) :
    ratio (signed s z.1.mantissa z.2) = s.apply m * 2 ^ p ∧
      (2 ^ 52 ≤ m ∨ p = -1074 → p ≤ 970 → Canonical (signed s z.1.mantissa z.2)) := by
  rw [shiftToTargetExponent_exact hle hleast] at hz
  subst hz
  rw [ratio_signed]
  split_ifs with hlt
  · exact ⟨rfl, fun hfull hp => canonical_signed s ⟨hlt, hleast, hfull⟩ (by dsimp only; omega)⟩
  · obtain rfl : m = 2 ^ 53 := le_antisymm hle (not_lt.1 hlt)
    refine ⟨?_, fun _ hp => canonical_signed s ⟨?_, ?_, .inl le_rfl⟩ ?_⟩
    · rw [zpow_add_one₀ two_ne_zero]
      cases s <;> simp [Sign.apply, ExtendedMantissa.ofMantissaAndAccuracy] <;> ring
    · exact Nat.pow_lt_pow_right one_lt_two (by decide)
    · dsimp only
      omega
    · dsimp only
      omega

theorem roundWithAccuracy_eq (s : Sign) (k : Nat) (e : Int) (a : Accuracy) :
    roundWithAccuracy Format.binary64 s k e a =
      let y := shiftToTargetExponent Format.binary64 k e a
      let z := shiftToTargetExponent Format.binary64 y.1.roundedMantissa y.2 .exact
      signed s z.1.mantissa z.2 := rfl

/-- **Rounding.** What is placed by a mantissa that has all its bits, or more of them, is rounded to the nearest number. -/
theorem roundWithAccuracy_nearest (s : Sign) {k : Nat} {e : Int} {a : Accuracy} {x : Rat}
    (hplaces : Places (.ofMantissaAndAccuracy k a) x) (he : e ≤ max (k.log2 + 1 + e - 53) (-1074)) :
    ∃ m p, Nearest m p (x * 2 ^ e) ∧ (roundWithAccuracy Format.binary64 s k e a).isFinite ∧
      ratio (roundWithAccuracy Format.binary64 s k e a) = s.apply m * 2 ^ p ∧
      (p ≤ 970 → Canonical (roundWithAccuracy Format.binary64 s k e a)) := by
  have hnear := nearest_shiftToTargetExponent hplaces he
  obtain ⟨hratio, hcanonical⟩ := signed_shiftToTargetExponent s hnear.mantissa_le_two_pow hnear.least rfl
  rw [roundWithAccuracy_eq]
  exact ⟨_, _, hnear, isFinite_signed s _ _, hratio, hcanonical hnear.full⟩

/-- A finite number that is nearest to a rational one. -/
def Rounded (q : Float) (x : Rat) : Prop := q.isFinite ∧ ∃ m p, Nearest m p x ∧ value q = m * 2 ^ p

theorem rounded_ofParts {k : Nat} {e : Int} {a : Accuracy} {x : Rat} (hplaces : Places (.ofMantissaAndAccuracy k a) x)
    (he : e ≤ max (k.log2 + 1 + e - 53) (-1074)) (hx : x * 2 ^ e < 2 ^ (1023 : Int)) :
    Rounded (ofParts (roundWithAccuracy Format.binary64 .positive k e a)) (x * 2 ^ e) := by
  obtain ⟨m, p, hnear, hfinite, hratio, hcanonical⟩ := roundWithAccuracy_nearest .positive hplaces he
  have hexponent := hnear.exponent_le (by decide) hx
  have hparts := parts_ofParts (hcanonical (by omega))
  refine ⟨?_, m, p, hnear, ?_⟩
  · rwa [isFinite_eq, hparts]
  · rw [value, hparts, hratio]
    rfl

/-! ## Division -/

theorem parts_of_pos {x : Float} (hx : x.isFinite) (hpos : 0 < value x) :
    ∃ m e hm, parts x = .finite .positive m e hm ∧ value x = size m e ∧ InFormat m e ∧ e ≤ 971 := by
  have hcanonical := parts_canonical x
  rw [isFinite_eq] at hx
  unfold value at hpos ⊢
  cases hp : parts x with
  | infinity s => rw [hp] at hx; cases hx
  | notANumber => rw [hp] at hx; cases hx
  | zero s => rw [hp] at hpos; exact absurd hpos (lt_irrefl _)
  | finite s m e hm =>
    rw [hp] at hcanonical hpos
    cases s with
    | positive => exact ⟨m, e, hm, rfl, rfl, hcanonical⟩
    | negative =>
      rw [ratio_negative] at hpos
      have := size_pos hm e
      linarith

/-- A quotient is taken to enough bits. -/
theorem divCore_fine {m₁ m₂ : Nat} (h₁ : 0 < m₁) (h₂ : 0 < m₂) (e₁ e₂ : Int) {q : Nat} {e : Int} {a : Accuracy}
    (hq : divCore Format.binary64 m₁ e₁ m₂ e₂ = (q, e, a)) :
    e ≤ max (q.log2 + 1 + e - 53) (-1074) ∧
      ∃ x, Places (.ofMantissaAndAccuracy q a) x ∧ x * 2 ^ e = size m₁ e₁ / size m₂ e₂ := by
  unfold divCore totalExponent at hq
  dsimp only at hq
  rw [targetExponent_eq] at hq
  generalize ht : min (e₁ - e₂) (max ((m₁.log2 : Int) + 1 + e₁ - (m₂.log2 + 1 + e₂) - 53) (-1074)) = t at hq
  generalize hn : (e₁ - e₂ - t).toNat = n at hq
  rw [Nat.shiftLeft_eq] at hq
  obtain ⟨rfl, rfl, rfl⟩ : m₁ * 2 ^ n / m₂ = q ∧ t = e ∧ accuracyOfFraction (m₁ * 2 ^ n % m₂) m₂ = a := by
    simpa using hq
  have hexp : e₁ = e₂ + t + n := by omega
  refine ⟨?_, _, places_div _ h₂, ?_⟩
  · by_cases hleast : t ≤ -1074
    · exact le_max_of_le_right hleast
    · have hbits : 2 ^ 52 * m₂ ≤ m₁ * 2 ^ n :=
        calc 2 ^ 52 * m₂ ≤ 2 ^ 52 * 2 ^ (m₂.log2 + 1) := Nat.mul_le_mul_left _ Nat.lt_log2_self.le
          _ = 2 ^ (52 + (m₂.log2 + 1)) := (pow_add ..).symm
          _ ≤ 2 ^ (m₁.log2 + n) := Nat.pow_le_pow_right two_pos (by omega)
          _ = 2 ^ m₁.log2 * 2 ^ n := pow_add ..
          _ ≤ m₁ * 2 ^ n := Nat.mul_le_mul_right _ (Nat.log2_self_le h₁.ne')
      have hquot : 2 ^ 52 ≤ m₁ * 2 ^ n / m₂ := (Nat.le_div_iff_mul_le h₂).2 hbits
      have hlog := (Nat.le_log2 (by omega)).2 hquot
      omega
  · have hpos : (m₂ : Rat) ≠ 0 := by exact_mod_cast h₂.ne'
    unfold size
    rw [hexp, zpow_add₀ two_ne_zero, zpow_add₀ two_ne_zero, zpow_natCast]
    push_cast
    field_simp

/-- **Division.** A quotient is the number nearest to the quotient of the values. -/
theorem rounded_div {x y : Float} (hx : x.isFinite) (hy : y.isFinite) (hxpos : 0 < value x) (hypos : 0 < value y)
    (hlt : value x / value y < 2 ^ (1023 : Int)) : Rounded (x / y) (value x / value y) := by
  obtain ⟨m₁, e₁, h₁, hp₁, hvx, -⟩ := parts_of_pos hx hxpos
  obtain ⟨m₂, e₂, h₂, hp₂, hvy, -⟩ := parts_of_pos hy hypos
  have hdiv : x / y = ofParts (UnpackedFloat.div Format.binary64 (parts x) (parts y)) := rfl
  rcases hq : divCore Format.binary64 m₁ e₁ m₂ e₂ with ⟨q, e, a⟩
  obtain ⟨hfine, z, hplaces, hz⟩ := divCore_fine h₁ h₂ e₁ e₂ hq
  rw [hvx, hvy] at hlt ⊢
  rw [hdiv, hp₁, hp₂, UnpackedFloat.div, hq, ← hz]
  exact rounded_ofParts hplaces hfine (hz ▸ hlt)

/-! ## Products and whole numbers -/

/-- A mantissa over a power of two is rounded after it has been given enough bits. -/
theorem rounded_round {m : Nat} (hm : 0 < m) {e : Int} (hlt : size m e < 2 ^ (1023 : Int)) :
    Rounded (ofParts (UnpackedFloat.round Format.binary64 .positive m e)) (size m e) := by
  unfold UnpackedFloat.round decreaseExponent totalExponent
  dsimp only
  rw [targetExponent_eq]
  generalize hn : (e - max ((m.log2 : Int) + 1 + e - 53) (-1074)).toNat = n
  have hsize : size m e = ((m <<< n : Nat) : Rat) * 2 ^ (e - n) := by
    rw [Nat.shiftLeft_eq, zpow_sub₀ two_ne_zero, zpow_natCast, size]
    push_cast
    field_simp
  have hlog : m.log2 + n ≤ (m <<< n).log2 := by
    have hpow : 2 ^ (m.log2 + n) ≤ m * 2 ^ n := by
      rw [pow_add]
      exact Nat.mul_le_mul_right _ (Nat.log2_self_le hm.ne')
    rw [Nat.shiftLeft_eq, Nat.le_log2 (by positivity)]
    exact hpow
  rw [hsize] at hlt ⊢
  exact rounded_ofParts (places_exact _) (by omega) hlt

/-- A product has enough bits: one factor has all of them, or both have the least exponent. -/
theorem mul_fine {m₁ m₂ : Nat} {e₁ e₂ : Int} (h₁ : 0 < m₁) (h₂ : 0 < m₂) (hf₁ : InFormat m₁ e₁) (hf₂ : InFormat m₂ e₂) :
    e₁ + e₂ ≤ max ((m₁ * m₂).log2 + 1 + (e₁ + e₂) - 53) (-1074) := by
  have hbits : 2 ^ 52 ≤ m₁ * m₂ → e₁ + e₂ ≤ max ((m₁ * m₂).log2 + 1 + (e₁ + e₂) - 53) (-1074) := fun h => by
    have hlog := (Nat.le_log2 (by omega)).2 h
    omega
  rcases hf₁.full with hfull | hleast₁
  · exact hbits (hfull.trans (Nat.le_mul_of_pos_right m₁ h₂))
  · rcases hf₂.full with hfull | hleast₂
    · exact hbits (hfull.trans (Nat.le_mul_of_pos_left m₂ h₁))
    · omega

/-- **Multiplication.** A product is the number nearest to the product of the values. -/
theorem rounded_mul {x y : Float} (hx : x.isFinite) (hy : y.isFinite) (hxpos : 0 < value x) (hypos : 0 < value y)
    (hlt : value x * value y < 2 ^ (1023 : Int)) : Rounded (x * y) (value x * value y) := by
  obtain ⟨m₁, e₁, h₁, hp₁, hvx, hf₁, -⟩ := parts_of_pos hx hxpos
  obtain ⟨m₂, e₂, h₂, hp₂, hvy, hf₂, -⟩ := parts_of_pos hy hypos
  have hvalue : value x * value y = ((m₁ * m₂ : Nat) : Rat) * 2 ^ (e₁ + e₂) := by
    rw [hvx, hvy, size, size, zpow_add₀ two_ne_zero]
    push_cast
    ring
  have hmul : x * y = ofParts (UnpackedFloat.mul Format.binary64 (parts x) (parts y)) := rfl
  rw [hvalue] at hlt ⊢
  rw [hmul, hp₁, hp₂]
  exact rounded_ofParts (places_exact _) (mul_fine h₁ h₂ hf₁ hf₂) hlt

/-- Under an exponent that is not positive every whole number is a multiple of the power. -/
theorem natCast_div_zpow (k : Nat) {p : Int} (hp : p ≤ 0) : (k : Rat) / 2 ^ p = ((k * 2 ^ p.natAbs : Nat) : Rat) := by
  obtain ⟨n, rfl⟩ := Int.exists_eq_neg_ofNat hp
  rw [Int.natAbs_neg, Int.natAbs_natCast, zpow_neg, zpow_natCast, div_inv_eq_mul]
  push_cast
  rfl

theorem Rounded.nonneg {q : Float} {x : Rat} (h : Rounded q x) : 0 ≤ value q := by
  obtain ⟨-, m, p, -, hvalue⟩ := h
  rw [hvalue]
  positivity

/-- Rounding does not carry a number past a whole one. -/
theorem Rounded.natCast_le {q : Float} {x : Rat} {k : Nat} (h : Rounded q x) (hx : x < 2 ^ 53) (hk : k ≤ x) :
    k ≤ value q := by
  obtain ⟨-, m, p, hnear, hvalue⟩ := h
  have hp := hnear.exponent_le (by decide : (-1021 : Int) ≤ 53) (by exact_mod_cast hx)
  have hpow : (0 : Rat) < 2 ^ p := by positivity
  have hdiv := natCast_div_zpow k (by omega : p ≤ 0)
  have hle := hnear.le_mantissa (hdiv ▸ (div_le_div_iff_of_pos_right hpow).2 hk)
  rw [hvalue, ← div_le_iff₀ hpow, hdiv]
  exact_mod_cast hle

theorem Rounded.le_natCast {q : Float} {x : Rat} {k : Nat} (h : Rounded q x) (hx : x < 2 ^ 53) (hk : x ≤ k) :
    value q ≤ k := by
  obtain ⟨-, m, p, hnear, hvalue⟩ := h
  have hp := hnear.exponent_le (by decide : (-1021 : Int) ≤ 53) (by exact_mod_cast hx)
  have hpow : (0 : Rat) < 2 ^ p := by positivity
  have hdiv := natCast_div_zpow k (by omega : p ≤ 0)
  have hle := hnear.mantissa_le (hdiv ▸ (div_le_div_iff_of_pos_right hpow).2 hk)
  rw [hvalue, ← le_div_iff₀ hpow, hdiv]
  exact_mod_cast hle

/-- Whole numbers below `2 ^ 53` are not rounded. -/
theorem Rounded.eq_natCast {q : Float} {n : Nat} (h : Rounded q n) (hn : n < 2 ^ 53) : value q = n := by
  have hlt : (n : Rat) < 2 ^ 53 := by exact_mod_cast hn
  exact le_antisymm (h.le_natCast hlt le_rfl) (h.natCast_le hlt le_rfl)

theorem lt_two_zpow_of_lt {x : Rat} (h : x < 2 ^ 53) : x < 2 ^ (1023 : Int) :=
  calc x < 2 ^ 53 := h
    _ = 2 ^ (53 : Int) := (zpow_natCast 2 53).symm
    _ < 2 ^ (1023 : Int) := zpow_lt_zpow_right₀ one_lt_two (by decide)

theorem ofNat_eq_round {n : Nat} (hn : 0 < n) :
    UnpackedFloat.ofNat Format.binary64 n = UnpackedFloat.round Format.binary64 .positive n 0 := by
  have hpos : compare (n : Int) 0 = .gt := compare_gt_iff_gt.2 (by omega)
  rw [UnpackedFloat.ofNat, UnpackedFloat.ofInt, UnpackedFloat.normalize, hpos]
  rfl

/-- Words below `2 ^ 53` are not rounded. -/
theorem value_toFloat {n : UInt64} (h : n.toNat < 2 ^ 53) : n.toFloat.isFinite ∧ value n.toFloat = n.toNat := by
  have hfloat : n.toFloat = ofParts (UnpackedFloat.ofNat Format.binary64 n.toNat) := rfl
  rcases Nat.eq_zero_or_pos n.toNat with hzero | hpos
  · have hparts : parts n.toFloat = .zero .positive := by
      rw [hfloat, hzero]
      exact parts_ofParts trivial
    rw [isFinite_eq, value, hparts, hzero]
    exact ⟨rfl, rfl⟩
  · have hsize : size n.toNat 0 = n.toNat := by simp [size]
    have hrounded := rounded_round hpos (by rw [hsize]; exact lt_two_zpow_of_lt (by exact_mod_cast h))
    rw [hsize, ← ofNat_eq_round hpos, ← hfloat] at hrounded
    exact ⟨hrounded.1, hrounded.eq_natCast h⟩

theorem ofNat_eq_mul {n : Nat} (h : n < 2 ^ 53) : Float.ofNat n = n.toUInt64.toFloat * .ofBits 0x3ff0000000000000 := by
  have hofNat : Float.ofNat n = Float.ofScientific n false 0 := rfl
  rw [hofNat, Float.ofScientific, dif_pos ⟨h, by decide⟩]
  rfl

/-- Natural numbers below `2 ^ 53` are not rounded. -/
theorem value_ofNat {n : Nat} (h : n < 2 ^ 53) : (Float.ofNat n).isFinite ∧ value (Float.ofNat n) = n := by
  have hn : n.toUInt64.toNat = n := Nat.mod_eq_of_lt (h.trans (by decide))
  obtain ⟨hfinite, hvalue⟩ := value_toFloat (hn.symm ▸ h)
  rw [hn] at hvalue
  rw [ofNat_eq_mul h]
  have hparts : parts (.ofBits 0x3ff0000000000000) = .finite .positive (2 ^ 52) (-52) (by decide) := by rfl
  have hone : value (.ofBits 0x3ff0000000000000) = 1 := by
    rw [value, hparts, ratio_positive, size]
    norm_num
  rcases Nat.eq_zero_or_pos n with rfl | hpos
  · exact ⟨by rfl, by rfl⟩
  · have hlt : (n : Rat) < 2 ^ (1023 : Int) := lt_two_zpow_of_lt (by exact_mod_cast h)
    have hrounded := rounded_mul hfinite rfl (by rw [hvalue]; exact_mod_cast hpos) (by rw [hone]; exact one_pos)
      (by rwa [hvalue, hone, mul_one])
    rw [hvalue, hone, mul_one] at hrounded
    exact ⟨hrounded.1, hrounded.eq_natCast h⟩

end Tessera.Floats
