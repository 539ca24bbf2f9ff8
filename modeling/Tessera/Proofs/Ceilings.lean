import Mathlib
import Tessera.Learn.Schedule
import Tessera.Proofs.Rounding
/-!
# Rounding down and up

A number that is not negative is cut off to the floor of its value: below `2 ^ 52` by way of words, and from there on every
number is whole and is read off its bits. So the ceiling of a number is the ceiling of its value (`Floats.ceil_eq`). The
quotient of two natural numbers has been rounded to the nearest number before its ceiling is taken. Up to `2 ^ 53` this
makes no difference (`ceil_ofNat_div`): the quotient cannot be carried to the whole number below it, since it lies at least
as far above it as half a step, and a quotient that lies exactly that far is a number itself.
-/

namespace Tessera.Floats

open Float.Model (Format UnpackedFloat totalExponent)
open Float.Model.UnpackedFloat
open Decimal

/-! ## Bits -/

theorem toNat_unpackExponent (b : BitVec 64) : (@unpackExponent Format.binary64 b).toNat = b.toNat / 2 ^ 52 % 2 ^ 11 := by
  simp [unpackExponent, Nat.shiftRight_eq_div_pow]

theorem toNat_unpackMantissa (b : BitVec 64) : (@unpackMantissa Format.binary64 b).toNat = b.toNat % 2 ^ 52 := by
  simp [unpackMantissa]

theorem toNat_unpackSign (b : BitVec 64) : (@unpackSign Format.binary64 b).toNat = b.toNat / 2 ^ 63 := by
  have hlt := b.isLt
  have hdiv : b.toNat / 2 ^ 63 < 2 := by omega
  simp only [unpackSign, BitVec.toNat_cast, BitVec.extractLsb_toNat, Nat.shiftRight_eq_div_pow]
  exact Nat.mod_eq_of_lt hdiv

/-- What the fields of a finite number are. -/
theorem ofFields_eq_finite {t s : Sign} {ev : BitVec 11} {mv : BitVec 52} {m : Nat} {e : Int} {hm : 0 < m}
    (h : ofFields t ev mv = .finite s m e hm) :
    t = s ∧
      (if ev.toNat = 0 then ⟨mv.toNat, -1074⟩ else ⟨mv.toNat + 2 ^ 52, (ev.toNat : Int) - 1075⟩ : Binary) = ⟨m, e⟩ := by
  unfold ofFields at h
  split_ifs at h with _ _ hsub
  · obtain ⟨hs, rfl, rfl⟩ := UnpackedFloat.finite.inj h
    rw [if_pos (by rw [hsub]; rfl)]
    exact ⟨hs, rfl⟩
  · obtain ⟨hs, rfl, rfl⟩ := UnpackedFloat.finite.inj h
    have hne : ev.toNat ≠ 0 := fun hz => hsub (BitVec.eq_of_toNat_eq hz)
    rw [if_neg hne, Nat.add_comm]
    exact ⟨hs, rfl⟩

/-- Decoding reads the mantissa and the exponent off. -/
theorem decode_eq {x : Float} {s : Sign} {m : Nat} {e : Int} {hm : 0 < m} (h : parts x = .finite s m e hm) :
    decode x = ⟨m, e⟩ := by
  rw [parts, Float.Model.unpack, unpack_eq] at h
  rw [← (ofFields_eq_finite h).2, toNat_unpackExponent, toNat_unpackMantissa]
  rfl

/-- The sign is the highest bit. -/
theorem isNegative_of_positive {x : Float} {m : Nat} {e : Int} {hm : 0 < m} (h : parts x = .finite .positive m e hm) :
    isNegative x = false := by
  rw [parts, Float.Model.unpack, unpack_eq] at h
  have hbit : @unpackSign Format.binary64 x.toModel.toBits.toBitVec = 0#1 := by
    have hsign := (ofFields_eq_finite h).1
    unfold Sign.ofBitVec at hsign
    split_ifs at hsign with hbit
    exact hbit
  have hshift : (x.toBits >>> 63).toNat = 0 := by
    rw [UInt64.toNat_shiftRight, Nat.shiftRight_eq_div_pow]
    exact (toNat_unpackSign _).symm.trans (congrArg BitVec.toNat hbit)
  have hzero : x.toBits >>> 63 = 0 := UInt64.toNat_inj.1 hshift
  rw [isNegative, hzero]
  rfl

theorem parts_ofBits (u : UInt64) :
    parts (.ofBits u) = ofFields (Sign.ofBitVec (@unpackSign Format.binary64 u.toBitVec))
      (@unpackExponent Format.binary64 u.toBitVec) (@unpackMantissa Format.binary64 u.toBitVec) := by
  have hparts := parts_ofParts (ofFields_canonical (Sign.ofBitVec (@unpackSign Format.binary64 u.toBitVec))
    (@unpackExponent Format.binary64 u.toBitVec) (@unpackMantissa Format.binary64 u.toBitVec))
  rw [← unpack_eq] at hparts
  rw [← unpack_eq]
  exact hparts

/-- The bits of a positive normal number. -/
theorem parts_ofBits_normal {f r : Nat} (hf : 0 < f) (hmax : f < 2047) (hr : r < 2 ^ 52) :
    parts (.ofBits (f * 2 ^ 52 + r).toUInt64) = .finite .positive (2 ^ 52 + r) (f - 1075) (by positivity) := by
  have hlt : f * 2 ^ 52 + r < 2 ^ 64 := by omega
  have hn : (f * 2 ^ 52 + r).toUInt64.toBitVec.toNat = f * 2 ^ 52 + r := by
    rw [UInt64.toNat_toBitVec, Nat.toUInt64_eq, UInt64.toNat_ofNat_of_lt' hlt]
  have hexp : (@unpackExponent Format.binary64 (f * 2 ^ 52 + r).toUInt64.toBitVec).toNat = f := by
    rw [toNat_unpackExponent, hn]
    omega
  have hman : (@unpackMantissa Format.binary64 (f * 2 ^ 52 + r).toUInt64.toBitVec).toNat = r := by
    rw [toNat_unpackMantissa, hn]
    omega
  have hsign : @unpackSign Format.binary64 (f * 2 ^ 52 + r).toUInt64.toBitVec = 0#1 := by
    apply BitVec.eq_of_toNat_eq
    rw [toNat_unpackSign, hn]
    exact Nat.div_eq_of_lt (by omega)
  rw [parts_ofBits, hsign]
  unfold ofFields
  rw [if_neg fun h => ?_, if_neg fun h => ?_]
  · congr 1
    · rw [hman]
    · rw [hexp]
  · rw [h] at hexp
    exact hf.ne hexp
  · rw [h] at hexp
    exact hmax.ne' hexp

/-! ## Whole parts -/

/-- The whole part of a mantissa over a power of two. -/
theorem roundToInt_positive (m : Nat) (e : Int) : roundToInt .positive m e = ⌊size m e⌋ := by
  unfold roundToInt decreaseExponent shiftToExponent
  dsimp only
  generalize hs : (e - 0).toNat = s
  generalize hn : (0 - (e - (s : Int))).toNat = n
  have hplaces := (places_exact (m <<< s)).shiftRight n
  have hsize : ((m <<< s : Nat) : Rat) / 2 ^ n = size m e := by
    have he : e = (s : Int) - n := by omega
    rw [he, size, zpow_sub₀ two_ne_zero, zpow_natCast, zpow_natCast, Nat.shiftLeft_eq]
    push_cast
    ring
  rw [hsize] at hplaces
  exact (Int.floor_eq_iff.2 (by exact_mod_cast hplaces.bounds)).symm

theorem parts_of_eq_zero {x : Float} (hx : x.isFinite) (hzero : value x = 0) : ∃ s, parts x = .zero s := by
  rw [isFinite_eq] at hx
  unfold value at hzero
  cases hp : parts x with
  | infinity s => rw [hp] at hx; cases hx
  | notANumber => rw [hp] at hx; cases hx
  | zero s => exact ⟨s, rfl⟩
  | finite s m e hm =>
    have hpos := size_pos hm e
    rw [hp] at hzero
    cases s with
    | positive => rw [ratio_positive] at hzero; linarith
    | negative => rw [ratio_negative] at hzero; linarith

/-- A number in the range of words is cut off to its whole part. -/
theorem toNat_toUInt64 {x : Float} (hx : x.isFinite) (hnonneg : 0 ≤ value x) (hlt : value x < 2 ^ 64) :
    (x.toUInt64.toNat : Int) = ⌊value x⌋ := by
  have hword : x.toUInt64 = UInt64.ofNatClamp ((parts x).toInt 0 (UInt64.size - 1)).toNat := rfl
  have htoInt : (parts x).toInt 0 (UInt64.size - 1) = ⌊value x⌋ := by
    rcases hnonneg.eq_or_lt with hzero | hpos
    · obtain ⟨s, hp⟩ := parts_of_eq_zero hx hzero.symm
      rw [← hzero, hp, Int.floor_zero]
      rfl
    · obtain ⟨m, e, hm, hp, hvalue, -⟩ := parts_of_pos hx hpos
      rw [hp, hvalue]
      exact roundToInt_positive m e
  have hfloor : 0 ≤ ⌊value x⌋ := Int.floor_nonneg.2 hnonneg
  have hsize : ⌊value x⌋ < UInt64.size := Int.floor_lt.2 (by exact_mod_cast hlt)
  rw [hword, htoInt, UInt64.toNat_ofNatClamp_of_lt (by omega)]
  omega

theorem canonical_abs {f : UnpackedFloat} (h : Canonical f) : Canonical f.abs := by
  cases f with
  | infinity s => trivial
  | notANumber => trivial
  | zero s => trivial
  | finite s m e hm => exact h

theorem parts_abs (x : Float) : parts x.abs = (parts x).abs := parts_ofParts (canonical_abs (parts_canonical x))

theorem isFinite_abs {x : Float} (hx : x.isFinite) : x.abs.isFinite := by
  rw [isFinite_eq] at *
  rw [parts_abs]
  cases hp : parts x <;> rw [hp] at hx <;> first | rfl | cases hx

theorem value_abs {x : Float} : value x.abs = |value x| := by
  rw [value, value, parts_abs]
  cases hp : parts x with
  | infinity s => simp [ratio, UnpackedFloat.abs]
  | notANumber => simp [ratio, UnpackedFloat.abs]
  | zero s => simp [ratio, UnpackedFloat.abs]
  | finite s m e hm =>
    have hpos := size_pos hm e
    cases s with
    | positive => rw [ratio_positive, abs_of_pos hpos]; rfl
    | negative => rw [ratio_negative, abs_neg, abs_of_pos hpos]; rfl

/-! ## Rounding down and up -/

theorem isFinite_allWhole : allWhole.isFinite := by rfl

theorem value_allWhole : value allWhole = 2 ^ 52 := by
  have hparts : parts allWhole = .finite .positive (2 ^ 52) 0 (by decide) := by rfl
  rw [value, hparts, ratio_positive, size]
  norm_num

/-- From `2 ^ 52` on every number is whole. -/
theorem parts_of_allWhole_le {x : Float} (hx : x.isFinite) (hle : 2 ^ 52 ≤ value x) :
    ∃ (m n : Nat) (hm : 0 < m), parts x = .finite .positive m n hm ∧ value x = (m * 2 ^ n : Nat) := by
  obtain ⟨m, e, hm, hp, hvalue, hformat, -⟩ := parts_of_pos hx (lt_of_lt_of_le (by norm_num) hle)
  have he : 0 ≤ e := by
    by_contra hneg
    have hsmall : size m e < 2 ^ 53 * 2 ^ (-1 : Int) := by
      have hlt : (m : Rat) < 2 ^ 53 := by exact_mod_cast hformat.lt
      have hpow : (2 : Rat) ^ e ≤ 2 ^ (-1 : Int) := zpow_le_zpow_right₀ one_le_two (by omega)
      exact mul_lt_mul hlt hpow (by positivity) (by positivity)
    rw [hvalue] at hle
    norm_num at hsmall
    linarith
  obtain ⟨n, rfl⟩ := Int.eq_ofNat_of_zero_le he
  refine ⟨m, n, hm, hp, ?_⟩
  rw [hvalue, size]
  push_cast
  rfl

section Nonnegative

variable {x : Float} (hx : x.isFinite) (hnonneg : 0 ≤ value x)
include hx hnonneg

theorem not_lt_ofNat_zero : ¬ x < Float.ofNat 0 := by
  obtain ⟨hfinite, hzero⟩ := value_ofNat (by decide : 0 < 2 ^ 53)
  rw [lt_iff_value hx hfinite, hzero]
  exact_mod_cast hnonneg.not_gt

theorem abs_lt_allWhole_iff : x.abs < allWhole ↔ value x < 2 ^ 52 := by
  rw [lt_iff_value (isFinite_abs hx) isFinite_allWhole, value_abs, abs_of_nonneg hnonneg, value_allWhole]

theorem toNat_toUInt64_abs (hlt : value x < 2 ^ 52) : (x.abs.toUInt64.toNat : Int) = ⌊value x⌋ := by
  have habs : value x.abs = value x := by rw [value_abs, abs_of_nonneg hnonneg]
  rw [toNat_toUInt64 (isFinite_abs hx) (habs ▸ hnonneg) (habs ▸ hlt.trans (by norm_num)), habs]

/-- **Rounding down.** The floor of a number has the floor of its value. -/
theorem value_floor : (Decimal.floor x).isFinite ∧ value (Decimal.floor x) = ⌊value x⌋ := by
  unfold Decimal.floor
  dsimp only
  by_cases hlt : x.abs < allWhole
  · rw [if_pos hlt, if_neg (not_lt_ofNat_zero hx hnonneg)]
    rw [abs_lt_allWhole_iff hx hnonneg] at hlt
    have hword := toNat_toUInt64_abs hx hnonneg hlt
    have hsmall : ⌊value x⌋ < 2 ^ 52 := Int.floor_lt.2 (by exact_mod_cast hlt)
    obtain ⟨hfinite, hvalue⟩ := @value_toFloat x.abs.toUInt64 (by omega)
    exact ⟨hfinite, by rw [hvalue, ← hword]; rfl⟩
  · rw [if_neg hlt]
    rw [abs_lt_allWhole_iff hx hnonneg, not_lt] at hlt
    obtain ⟨m, n, -, -, hvalue⟩ := parts_of_allWhole_le hx hlt
    exact ⟨hx, by rw [hvalue, Int.floor_natCast]; rfl⟩

/-- The integer of a number is the floor of its value. -/
theorem toInt_eq_floor : Decimal.toInt x = ⌊value x⌋ := by
  unfold Decimal.toInt
  dsimp only
  by_cases hlt : x.abs < allWhole
  · rw [if_pos hlt, if_neg (not_lt_ofNat_zero hx hnonneg)]
    exact toNat_toUInt64_abs hx hnonneg ((abs_lt_allWhole_iff hx hnonneg).1 hlt)
  · rw [if_neg hlt, if_pos hx]
    rw [abs_lt_allWhole_iff hx hnonneg, not_lt] at hlt
    obtain ⟨m, n, hm, hp, hvalue⟩ := parts_of_allWhole_le hx hlt
    unfold truncated
    rw [isNegative_of_positive hp, decode_eq hp, hvalue, Int.floor_natCast]
    simp [Binary.num, Binary.den]

/-- **Rounding up.** The least integer that is not below a number is the ceiling of its value. -/
theorem ceil_eq : Scalar.ceil x = ⌈value x⌉ := by
  obtain ⟨hfinite, hvalue⟩ := value_floor hx hnonneg
  have hfloor : (0 : Rat) ≤ ⌊value x⌋ := by exact_mod_cast Int.floor_nonneg.2 hnonneg
  have hint : Decimal.toInt (Decimal.floor x) = ⌊value x⌋ := by
    rw [toInt_eq_floor hfinite (hvalue ▸ hfloor), hvalue, Int.floor_intCast]
  have hlt : Decimal.floor x < x ↔ (⌊value x⌋ : Rat) < value x := by rw [lt_iff_value hfinite hx, hvalue]
  have hceil : Scalar.ceil x =
      if Decimal.floor x < x then Decimal.toInt (Decimal.floor x) + 1 else Decimal.toInt (Decimal.floor x) := rfl
  rw [hceil, hint]
  have hle := Int.floor_le (value x)
  have hbelow := Int.lt_floor_add_one (value x)
  split_ifs with h <;> rw [hlt] at h <;> symm <;> rw [Int.ceil_eq_iff] <;> push_cast
  · exact ⟨by linarith, hbelow.le⟩
  · exact ⟨by linarith, not_lt.1 h⟩

end Nonnegative

/-! ## Numbers of natural numbers -/

theorem value_lt {x : Float} (hx : x.isFinite) (hpos : 0 < value x) : value x < 2 ^ (1024 : Int) := by
  obtain ⟨m, e, -, -, hvalue, hformat, he⟩ := parts_of_pos hx hpos
  have hlt : (m : Rat) < 2 ^ (53 : Int) := by exact_mod_cast hformat.lt
  have hpow : (2 : Rat) ^ e ≤ 2 ^ (971 : Int) := zpow_le_zpow_right₀ one_le_two he
  rw [hvalue, size]
  calc (m : Rat) * 2 ^ e < 2 ^ (53 : Int) * 2 ^ (971 : Int) := mul_lt_mul hlt hpow (by positivity) (by positivity)
    _ = 2 ^ (1024 : Int) := by rw [← zpow_add₀ two_ne_zero]; rfl

/-- Natural numbers up to `2 ^ 53` are not rounded. -/
theorem value_natural {n : Nat} (h : n ≤ 2 ^ 53) : (Decimal.ofNat n).isFinite ∧ value (Decimal.ofNat n) = n := by
  rcases Nat.lt_or_eq_of_le h with hlt | rfl
  · have hsmall : Decimal.ofNat n = Float.ofNat n := if_pos hlt
    rw [hsmall]
    exact value_ofNat hlt
  · have hparts : parts (Decimal.ofNat (2 ^ 53)) = .finite .positive (2 ^ 52) 1 (by decide) := by rfl
    rw [isFinite_eq, value, hparts, ratio_positive, size]
    exact ⟨rfl, by norm_num⟩

theorem le_roundDiv (n d : Nat) : n / d ≤ roundDiv n d := by
  unfold roundDiv
  dsimp only
  split_ifs <;> omega

/-- A larger natural number is rounded to fifty-three bits. -/
theorem ofNat_eq_ofBinary {n : Nat} (h : 2 ^ 53 ≤ n) :
    Decimal.ofNat n = ofBinary (roundDiv n (2 ^ (n.log2 - 52))) (n.log2 - 52 : Nat) := by
  have hn : n ≠ 0 := by omega
  have hlog : 53 ≤ n.log2 := (Nat.le_log2 hn).2 h
  have hmagnitude : binaryMagnitude n 1 = n.log2 := by
    have hone : Nat.log2 1 = 0 := by decide
    unfold binaryMagnitude
    dsimp only
    rw [hone, Nat.cast_zero, sub_zero, Int.toNat_natCast]
    refine if_pos ?_
    simpa using Nat.log2_self_le hn
  have hexponent : max ((n.log2 : Int) - 52) (-1074) = ((n.log2 - 52 : Nat) : Int) := by omega
  have hsmall : ¬ n < Nat.pow 2 53 := not_lt.2 h
  rw [Decimal.ofNat, if_neg hsmall, ofRatio, if_neg hn]
  dsimp only
  rw [hmagnitude, hexponent, Int.toNat_neg_natCast, Int.toNat_natCast, Nat.one_mul]
  simp

/-- A number with all its bits is at least its power of two, unless there is none. -/
theorem le_value_ofBinary {m e : Nat} (hm : 2 ^ 52 ≤ m) (hfinite : (ofBinary m e).isFinite) :
    2 ^ 52 * 2 ^ (e : Int) ≤ value (ofBinary m e) := by
  have hbinary : ofBinary m e = .ofBits
      (if (e + 1074) * 2 ^ 52 + m < 2047 * 2 ^ 52 then ((e + 1074) * 2 ^ 52 + m).toUInt64 else 0x7ff0000000000000) := by
    have hfull : ¬ m < Nat.pow 2 52 := not_lt.2 hm
    rw [ofBinary, if_neg hfull]
    rfl
  rw [hbinary] at hfinite ⊢
  generalize hb : (e + 1074) * 2 ^ 52 + m = bits at *
  by_cases hmax : bits < 2047 * 2 ^ 52
  · have hparts := @parts_ofBits_normal (bits / 2 ^ 52) (bits % 2 ^ 52) (by omega) (by omega) (by omega)
    rw [Nat.div_add_mod'] at hparts
    have hmantissa : (2 : Rat) ^ 52 ≤ (2 ^ 52 + bits % 2 ^ 52 : Nat) := by exact_mod_cast Nat.le_add_right _ _
    have hexponent : (2 : Rat) ^ (e : Int) ≤ 2 ^ (((bits / 2 ^ 52 : Nat) : Int) - 1075) :=
      zpow_le_zpow_right₀ one_le_two (by omega)
    rw [if_pos hmax, value, hparts, ratio_positive, size]
    exact mul_le_mul hmantissa hexponent (by positivity) (by positivity)
  · rw [if_neg hmax] at hfinite
    cases hfinite

/-- The numbers of larger ones are not below `2 ^ 53`. -/
theorem le_value_natural {n : Nat} (h : 2 ^ 53 ≤ n) (hfinite : (Decimal.ofNat n).isFinite) :
    2 ^ 53 ≤ value (Decimal.ofNat n) := by
  have hn : n ≠ 0 := by omega
  have hlog : 53 ≤ n.log2 := (Nat.le_log2 hn).2 h
  have hmantissa : 2 ^ 52 ≤ roundDiv n (2 ^ (n.log2 - 52)) := by
    refine le_trans ?_ (le_roundDiv _ _)
    rw [Nat.le_div_iff_mul_le (by positivity), ← pow_add, Nat.add_sub_cancel' (by omega)]
    exact Nat.log2_self_le hn
  have hexponent : (2 : Rat) ^ (1 : Int) ≤ 2 ^ ((n.log2 - 52 : Nat) : Int) := zpow_le_zpow_right₀ one_le_two (by omega)
  rw [ofNat_eq_ofBinary h] at hfinite ⊢
  calc (2 : Rat) ^ 53 = 2 ^ 52 * 2 ^ (1 : Int) := by norm_num
    _ ≤ 2 ^ 52 * 2 ^ ((n.log2 - 52 : Nat) : Int) := mul_le_mul_of_nonneg_left hexponent (by positivity)
    _ ≤ _ := le_value_ofBinary hmantissa hfinite

/-! ## Quotients rounded up -/

/-- What is not below the least positive number is not rounded to zero. -/
theorem Rounded.pos {q : Float} {x : Rat} (h : Rounded q x) (hx : 2 ^ (-1074 : Int) ≤ x) : 0 < value q := by
  obtain ⟨-, m, p, hnear, hvalue⟩ := h
  have hone : ((1 : Nat) : Rat) ≤ x / 2 ^ p := by
    rw [Nat.cast_one]
    rcases hnear.fine with rfl | hfine
    · exact (one_le_div (by positivity)).2 hx
    · exact le_trans (by norm_num) hfine
  have hm : 0 < m := hnear.le_mantissa hone
  rw [hvalue]
  positivity

/-- A quotient of natural numbers that is not whole is not rounded down to a whole number. -/
theorem Rounded.ne_floor {q : Float} {t b : Nat} (h : Rounded q (t / b : Rat)) (ht : t ≤ 2 ^ 53) (hb : 0 < b)
    (hb' : b ≤ 2 ^ 53) (hrest : t % b ≠ 0) : value q ≠ (t / b : Nat) := by
  intro heq
  obtain ⟨-, m, p, hnear, hvalue⟩ := h
  have hpow : (0 : Rat) < 2 ^ p := by positivity
  have hbpos : (0 : Rat) < b := by exact_mod_cast hb
  -- the quotient lies at least `1 / b` above the whole number, which is at most half a step
  have hone : (1 : Rat) ≤ (t % b : Nat) := by exact_mod_cast Nat.pos_of_ne_zero hrest
  have habove : (1 : Rat) / b ≤ t / b - m * 2 ^ p := by
    rw [← hvalue, heq, natCast_div_eq t hb, add_sub_cancel_left]
    gcongr
  have hhalf : (t : Rat) / b - m * 2 ^ p ≤ 2 ^ p / 2 := by
    have hnear := (abs_le.1 hnear.near).2
    rw [sub_le_iff_le_add, div_le_iff₀ hpow] at hnear
    linarith
  have hstep : 2 ≤ (b : Rat) * 2 ^ p := by
    have hle := habove.trans hhalf
    rw [div_le_div_iff₀ hbpos two_pos] at hle
    linarith
  rcases hnear.fine with rfl | hfine
  · have hsmall : (b : Rat) * 2 ^ (-1074 : Int) ≤ 2 ^ (53 : Int) * 2 ^ (-1074 : Int) := by
      have : (b : Rat) ≤ 2 ^ (53 : Int) := by exact_mod_cast hb'
      gcongr
    have htiny : (2 : Rat) ^ (53 : Int) * 2 ^ (-1074 : Int) ≤ 1 := by
      rw [← zpow_add₀ two_ne_zero]
      exact zpow_le_one_of_nonpos₀ one_le_two (by decide)
    linarith
  · -- the step is then `2 / b`, so the quotient is a whole number of steps, and would have been exact
    have hquot : (t : Rat) / b / 2 ^ p = t / (b * 2 ^ p) := div_div _ _ _
    have htotal : (t : Rat) ≤ 2 ^ 53 := by exact_mod_cast ht
    have hexact : (t : Rat) / b / 2 ^ p = ((2 ^ 52 : Nat) : Rat) := by
      have hupper : (t : Rat) / b / 2 ^ p ≤ 2 ^ 52 := by
        rw [hquot, div_le_iff₀ (by positivity)]
        linarith
      exact_mod_cast le_antisymm hupper hfine
    have hm : m = 2 ^ 52 := le_antisymm (hnear.mantissa_le hexact.le) (hnear.le_mantissa hexact.ge)
    have hwhole : (t : Rat) / b = m * 2 ^ p := by rw [hm, ← hexact, div_mul_cancel₀ _ hpow.ne']
    have hpos : (0 : Rat) < 1 / b := by positivity
    linarith

theorem ceil_eq_natCast_add_one {k : Nat} {x : Rat} (hlt : (k : Rat) < x) (hle : x ≤ k + 1) : ⌈x⌉ = k + 1 := by
  rw [Int.ceil_eq_iff]
  push_cast
  exact ⟨by linarith, hle⟩

/-- A quotient of natural numbers that has been rounded to the nearest number still has the same ceiling. -/
theorem Rounded.ceil_eq {q : Float} {t b : Nat} (h : Rounded q (t / b : Rat)) (ht : t ≤ 2 ^ 53) (hb : 0 < b)
    (hb' : b ≤ 2 ^ 53) (hlt : (t / b : Rat) < 2 ^ 53) : ⌈value q⌉ = ⌈(t / b : Rat)⌉ := by
  have hbpos : (0 : Rat) < b := by exact_mod_cast hb
  by_cases hrest : t % b = 0
  · obtain ⟨k, rfl⟩ := Nat.dvd_of_mod_eq_zero hrest
    have hquot : ((b * k : Nat) : Rat) / b = k := by rw [Nat.cast_mul, mul_div_cancel_left₀ _ hbpos.ne']
    rw [hquot] at h hlt ⊢
    rw [h.eq_natCast (by exact_mod_cast hlt)]
  · have hne := h.ne_floor ht hb hb' hrest
    have hsplit := natCast_div_eq t hb
    have hpos : (0 : Rat) < (t % b : Nat) / (b : Rat) := by
      have : (0 : Rat) < (t % b : Nat) := by exact_mod_cast Nat.pos_of_ne_zero hrest
      positivity
    have hbelow : (t % b : Nat) / (b : Rat) < 1 := (div_lt_one hbpos).2 (by exact_mod_cast Nat.mod_lt t hb)
    have hlower := h.natCast_le hlt (by linarith : ((t / b : Nat) : Rat) ≤ t / b)
    have hupper := h.le_natCast hlt (by push_cast; linarith : (t / b : Rat) ≤ (t / b + 1 : Nat))
    rw [ceil_eq_natCast_add_one (lt_of_le_of_ne hlower hne.symm) (by exact_mod_cast hupper),
      ceil_eq_natCast_add_one (k := t / b) (by linarith) (by linarith)]

/-- Zero over a number is zero. -/
theorem value_zero_div {x y : Float} (hx : x.isFinite) (hy : y.isFinite) (hzero : value x = 0) (hpos : 0 < value y) :
    (x / y).isFinite ∧ value (x / y) = 0 := by
  obtain ⟨s, hp⟩ := parts_of_eq_zero hx hzero
  obtain ⟨m, e, hm, hq, -⟩ := parts_of_pos hy hpos
  have hparts : parts (x / y) = .zero (s / .positive) := by
    have hdiv : x / y = ofParts (UnpackedFloat.div Format.binary64 (parts x) (parts y)) := rfl
    rw [hdiv, hp, hq]
    exact parts_ofParts trivial
  rw [isFinite_eq, value, hparts]
  exact ⟨rfl, rfl⟩

end Tessera.Floats

namespace Tessera

open Floats

/-- Blocks up to `2 ^ 53` samples. -/
theorem ceil_div_of_le {total block : Nat} (hpos : 0 < total) (htotal : total ≤ 2 ^ 53) (hblock : 0 < block)
    (hle : block ≤ 2 ^ 53) :
    (Decimal.ofNat total / Decimal.ofNat block).isFinite ∧
      Scalar.ceil (Decimal.ofNat total / Decimal.ofNat block) = ⌈(total / block : Rat)⌉ := by
  by_cases hlast : total = 2 ^ 53 ∧ block = 1
  · obtain ⟨rfl, rfl⟩ := hlast
    have hceil : ⌈((2 ^ 53 : Nat) : Rat) / (1 : Nat)⌉ = 2 ^ 53 := by
      rw [Nat.cast_one, div_one, Int.ceil_natCast]
      rfl
    rw [hceil]
    decide +kernel
  · obtain ⟨htfinite, htvalue⟩ := value_natural htotal
    obtain ⟨hbfinite, hbvalue⟩ := value_natural hle
    have htpos : (0 : Rat) < total := by exact_mod_cast hpos
    have hbpos : (0 : Rat) < block := by exact_mod_cast hblock
    have hlt : (total / block : Rat) < 2 ^ 53 := by
      rw [div_lt_iff₀ hbpos]
      exact_mod_cast (by omega : total < 2 ^ 53 * block)
    have hrounded := rounded_div htfinite hbfinite (htvalue ▸ htpos) (hbvalue ▸ hbpos)
      (by rw [htvalue, hbvalue]; exact lt_two_zpow_of_lt hlt)
    rw [htvalue, hbvalue] at hrounded
    exact ⟨hrounded.1, (ceil_eq hrounded.1 hrounded.nonneg).trans (hrounded.ceil_eq htotal hblock hle hlt)⟩

/-- Larger blocks, of which there is one. -/
theorem ceil_div_of_lt {total block : Nat} (hpos : 0 < total) (htotal : total ≤ 2 ^ 53) (hlt : 2 ^ 53 < block)
    (hfinite : (Decimal.ofNat block).isFinite) :
    (Decimal.ofNat total / Decimal.ofNat block).isFinite ∧
      Scalar.ceil (Decimal.ofNat total / Decimal.ofNat block) = ⌈(total / block : Rat)⌉ := by
  obtain ⟨htfinite, htvalue⟩ := value_natural htotal
  have hlarge := le_value_natural hlt.le hfinite
  have hbpos : 0 < value (Decimal.ofNat block) := lt_of_lt_of_le (by norm_num) hlarge
  have hmost := value_lt hfinite hbpos
  generalize hb : value (Decimal.ofNat block) = b at hlarge hbpos hmost
  have htpos : (1 : Rat) ≤ total := by exact_mod_cast hpos
  have htle : (total : Rat) ≤ 2 ^ 53 := by exact_mod_cast htotal
  have hone : total / b ≤ 1 := (div_le_one hbpos).2 (htle.trans hlarge)
  have hleast : (2 : Rat) ^ (-1074 : Int) ≤ total / b :=
    calc (2 : Rat) ^ (-1074 : Int) ≤ 2 ^ (-1024 : Int) := zpow_le_zpow_right₀ one_le_two (by decide)
      _ = 1 / 2 ^ (1024 : Int) := by rw [zpow_neg, one_div]
      _ ≤ total / b := div_le_div₀ (by linarith) htpos hbpos hmost.le
  have hrounded := rounded_div htfinite hfinite (htvalue ▸ by linarith) (hb ▸ hbpos)
    (by rw [htvalue, hb]; exact lt_two_zpow_of_lt (hone.trans_lt (by norm_num)))
  rw [htvalue, hb] at hrounded
  have hvaluepos := hrounded.pos hleast
  have hvalueone : value (Decimal.ofNat total / Decimal.ofNat block) ≤ (1 : Nat) :=
    hrounded.le_natCast (hone.trans_lt (by norm_num)) (by rwa [Nat.cast_one])
  have hquotpos : (0 : Rat) < total / block := by positivity
  have hquotone : (total / block : Rat) ≤ 1 := (div_le_one (by positivity)).2 (by exact_mod_cast htotal.trans hlt.le)
  refine ⟨hrounded.1, ?_⟩
  rw [ceil_eq hrounded.1 hvaluepos.le,
    ceil_eq_natCast_add_one (k := 0) (by simpa using hvaluepos) (by simpa using hvalueone),
    ceil_eq_natCast_add_one (k := 0) (by simpa using hquotpos) (by simpa using hquotone)]

/-- **Counting blocks.** Up to `2 ^ 53` samples, and with blocks of any size that has a floating-point number, the quotient
of the floating-point numbers is rounded up to the number of blocks. -/
theorem ceil_ofNat_div {total block : Nat} (htotal : total ≤ 2 ^ 53) (hblock : 0 < block)
    (hfinite : (Decimal.ofNat block).isFinite) :
    (Decimal.ofNat total / Decimal.ofNat block).isFinite ∧
      Scalar.ceil (Decimal.ofNat total / Decimal.ofNat block) = ⌈(total / block : Rat)⌉ := by
  obtain ⟨htfinite, htvalue⟩ := value_natural htotal
  rcases Nat.eq_zero_or_pos total with rfl | hpos
  · have hbpos : 0 < value (Decimal.ofNat block) := by
      rcases Nat.lt_or_ge (2 ^ 53) block with hlt | hle
      · exact lt_of_lt_of_le (by norm_num) (le_value_natural hlt.le hfinite)
      · rw [(value_natural hle).2]
        exact_mod_cast hblock
    obtain ⟨hqfinite, hqvalue⟩ := value_zero_div htfinite hfinite (by simpa using htvalue) hbpos
    exact ⟨hqfinite, by rw [ceil_eq hqfinite hqvalue.ge, hqvalue]; simp⟩
  · rcases Nat.lt_or_ge (2 ^ 53) block with hlt | hle
    · exact ceil_div_of_lt hpos htotal hlt hfinite
    · exact ceil_div_of_le hpos htotal hblock hle

end Tessera
