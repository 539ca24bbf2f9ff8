import Mathlib
import Tessera.Scalar
/-!
# Floating-point numbers as rational numbers

A finite floating-point number is a signed mantissa of at most fifty-three bits times a power of two, and stands for a
rational number (`value`). Mantissas have all their bits unless the exponent is the least (`parts_canonical`), so the
comparison of numbers, by exponent first and mantissa second, is the order of their values (`lt_iff_value`). Parts that are
canonical come back unchanged when they are packed into bits (`parts_ofParts`).
-/

namespace Tessera.Floats

open Float.Model (Format UnpackedFloat)
open Float.Model.UnpackedFloat

/-- The sign, mantissa and exponent of a number, or what it is when it has none. -/
def parts (x : Float) : UnpackedFloat := x.toModel.unpack

/-- The number with some parts. -/
def ofParts (f : UnpackedFloat) : Float := .ofModel (.pack f)

/-- The rational number of some parts; what is not finite counts as zero. -/
def ratio : UnpackedFloat → Rat
  | .finite s m e _ => s.apply m * (2 : Rat) ^ e
  | _ => 0

/-- The rational number that a number stands for. -/
def value (x : Float) : Rat := ratio (parts x)

/-- A mantissa has fifty-three bits, or fewer under the least exponent. -/
structure InFormat (m : Nat) (e : Int) : Prop where
  lt : m < 2 ^ 53
  least : -1074 ≤ e
  full : 2 ^ 52 ≤ m ∨ e = -1074

/-- Parts that a number can have. -/
def Canonical : UnpackedFloat → Prop
  | .finite _ m e _ => InFormat m e ∧ e ≤ 971
  | _ => True

/-! ## Fields -/

/-- The parts that a sign, an exponent field and a mantissa field encode. -/
def ofFields (s : Sign) (ev : BitVec 11) (mv : BitVec 52) : UnpackedFloat :=
  if ev = -1#11 then
    if mv = 0#52 then .infinity s else .notANumber
  else if ev = 0#11 then
    if h : mv = 0#52 then .zero s
    else .finite s mv.toNat (-1074) (Nat.pos_of_ne_zero fun hz => h (BitVec.eq_of_toNat_eq hz))
  else .finite s (2 ^ 52 + mv.toNat) (ev.toNat - 1075) (by omega)

theorem unpack_eq (b : BitVec 64) :
    unpack Format.binary64 b =
      ofFields (Sign.ofBitVec (@unpackSign Format.binary64 b)) (@unpackExponent Format.binary64 b)
        (@unpackMantissa Format.binary64 b) := by
  unfold unpack ofFields
  dsimp only
  split
  · rfl
  · split
    · rename_i hzero
      split
      · rfl
      · congr 1
        rw [hzero]
        rfl
    · congr 1
      rw [BitVec.toNat_append, ← Nat.shiftLeft_add_eq_or_of_lt (BitVec.isLt _)]
      rfl

/-- Fields encode canonical parts. -/
theorem ofFields_canonical (s : Sign) (ev : BitVec 11) (mv : BitVec 52) : Canonical (ofFields s ev mv) := by
  have hm := mv.isLt
  have he := ev.isLt
  unfold ofFields
  split
  · split <;> trivial
  · rename_i hmax
    have hmax : ev.toNat ≠ 2047 := fun h => hmax (BitVec.eq_of_toNat_eq h)
    split
    · split
      · trivial
      · exact ⟨⟨by omega, by omega, .inr rfl⟩, by omega⟩
    · rename_i hpos
      have hpos : ev.toNat ≠ 0 := fun h => hpos (BitVec.eq_of_toNat_eq h)
      exact ⟨⟨by omega, by omega, .inl (by omega)⟩, by omega⟩

/-- The parts of a number are canonical. -/
theorem parts_canonical (x : Float) : Canonical (parts x) := by
  rw [parts, Float.Model.unpack, unpack_eq]
  exact ofFields_canonical _ _ _

/-! ## Packing -/

theorem ofBitVec_unpackSign (s : Sign) (e : BitVec 11) (m : BitVec 52) :
    Sign.ofBitVec (unpackSign (packComponents Format.binary64 s e m)) = s := by
  have hbit : unpackSign (packComponents Format.binary64 s e m) = s.toBitVec := by
    simp only [unpackSign, packComponents, BitVec.extractLsb]
    rw [BitVec.extractLsb'_append_eq_of_le (by decide), BitVec.extractLsb'_append_eq_of_le (by decide)]
    cases s <;> rfl
  rw [hbit]
  cases s <;> rfl

theorem unpack_packComponents (s : Sign) (ev : BitVec 11) (mv : BitVec 52) :
    unpack Format.binary64 (packComponents Format.binary64 s ev mv) = ofFields s ev mv := by
  rw [unpack_eq, ofBitVec_unpackSign, unpackExponent_packComponents, unpackMantissa_packComponents]

theorem log2_add_one_eq_iff {m : Nat} (hm : 0 < m) (hlt : m < 2 ^ 53) : m.log2 + 1 = 53 ↔ 2 ^ 52 ≤ m := by
  have hupper : m.log2 < 53 := (Nat.log2_lt hm.ne').2 hlt
  have hlower : 52 ≤ m.log2 ↔ 2 ^ 52 ≤ m := Nat.le_log2 hm.ne'
  omega

/-- Canonical parts come back from their bits. -/
theorem unpack_pack {f : UnpackedFloat} (h : Canonical f) : unpack Format.binary64 (pack Format.binary64 f) = f := by
  cases f with
  | infinity s => exact unpack_packComponents s _ _
  | notANumber => exact unpack_packComponents .positive _ _
  | zero s => exact unpack_packComponents s _ _
  | finite s m e hm =>
    obtain ⟨⟨hlt, hleast, hfull⟩, hmost⟩ := h
    have hbias : ((Format.binary64.exponentBias : Nat) : Int) = 1023 := rfl
    have hbits : Format.binary64.mantissaBits = 53 := rfl
    unfold pack
    dsimp only
    rw [hbias, hbits]
    -- the exponent field lies strictly between the fields of zero and infinity
    generalize hb : (e + 1023 + ((52 : Nat) : Int)).toNat = b
    have hexp : (BitVec.ofNat 11 b).toNat = b := by rw [BitVec.toNat_ofNat, Nat.mod_eq_of_lt (by omega)]
    rw [if_neg (by omega)]
    by_cases hnormal : 2 ^ 52 ≤ m
    · have hmantissa : (BitVec.ofNat 52 m).toNat = m - 2 ^ 52 := by rw [BitVec.toNat_ofNat]; omega
      have hinf : BitVec.ofNat 11 b ≠ -1#11 := fun h => by
        have := hexp.symm.trans (congrArg BitVec.toNat h)
        simp at this
        omega
      have hzero : BitVec.ofNat 11 b ≠ 0#11 := fun h => by
        have := hexp.symm.trans (congrArg BitVec.toNat h)
        simp at this
        omega
      rw [if_pos ((log2_add_one_eq_iff hm hlt).2 hnormal)]
      refine (unpack_packComponents s _ _).trans ?_
      unfold ofFields
      rw [if_neg hinf, if_neg hzero]
      congr 1
      · rw [hmantissa]; omega
      · rw [hexp]; omega
    · have hmantissa : (BitVec.ofNat 52 m).toNat = m := by rw [BitVec.toNat_ofNat]; omega
      have hzero : BitVec.ofNat 52 m ≠ 0#52 := fun h => by
        have := hmantissa.symm.trans (congrArg BitVec.toNat h)
        simp at this
        omega
      rw [if_neg fun h => hnormal ((log2_add_one_eq_iff hm hlt).1 h)]
      refine (unpack_packComponents s _ _).trans ?_
      unfold ofFields
      rw [if_neg (by decide), if_pos rfl, dif_neg hzero]
      congr 1
      omega

theorem parts_ofParts {f : UnpackedFloat} (h : Canonical f) : parts (ofParts f) = f := unpack_pack h

/-! ## Order -/

/-- The size of a mantissa and an exponent. -/
def size (m : Nat) (e : Int) : Rat := m * (2 : Rat) ^ e

theorem size_pos {m : Nat} (hm : 0 < m) (e : Int) : 0 < size m e := by
  unfold size
  positivity

/-- A greater exponent outweighs the mantissa. -/
theorem size_lt_of_lt {m₁ m₂ : Nat} {e₁ e₂ : Int} (h₁ : InFormat m₁ e₁) (h₂ : InFormat m₂ e₂) (he : e₁ < e₂) :
    size m₁ e₁ < size m₂ e₂ := by
  have hleast := h₁.least
  have hnormal : 2 ^ 52 ≤ m₂ := h₂.full.resolve_right (by omega)
  have hm₁ : (m₁ : Rat) < 2 ^ 53 := by exact_mod_cast h₁.lt
  have hm₂ : (2 : Rat) ^ 52 ≤ m₂ := by exact_mod_cast hnormal
  calc size m₁ e₁ < 2 ^ 53 * (2 : Rat) ^ e₁ := by unfold size; gcongr
    _ = 2 ^ 52 * (2 : Rat) ^ (e₁ + 1) := by rw [zpow_add_one₀ two_ne_zero]; ring
    _ ≤ 2 ^ 52 * (2 : Rat) ^ e₂ := by
      gcongr
      · norm_num
      · omega
    _ ≤ size m₂ e₂ := by unfold size; gcongr

/-- By exponent and then by mantissa is by size. -/
theorem compare_size {m₁ m₂ : Nat} {e₁ e₂ : Int} (h₁ : InFormat m₁ e₁) (h₂ : InFormat m₂ e₂) :
    (compare e₁ e₂).then (compare m₁ m₂) = compare (size m₁ e₁) (size m₂ e₂) := by
  rcases lt_trichotomy e₁ e₂ with he | rfl | he
  · rw [compare_lt_iff_lt.2 he, compare_lt_iff_lt.2 (size_lt_of_lt h₁ h₂ he)]
    rfl
  · rw [compare_eq_iff_eq.2 rfl]
    have hpos : (0 : Rat) < 2 ^ e₁ := by positivity
    rcases lt_trichotomy m₁ m₂ with hm | rfl | hm
    · have : size m₁ e₁ < size m₂ e₁ := by unfold size; gcongr
      rw [compare_lt_iff_lt.2 hm, compare_lt_iff_lt.2 this]
      rfl
    · rw [compare_eq_iff_eq.2 rfl, compare_eq_iff_eq.2 rfl]
      rfl
    · have : size m₂ e₁ < size m₁ e₁ := by unfold size; gcongr
      rw [compare_gt_iff_gt.2 hm, compare_gt_iff_gt.2 this]
      rfl
  · rw [compare_gt_iff_gt.2 he, compare_gt_iff_gt.2 (size_lt_of_lt h₂ h₁ he)]
    rfl

theorem compare_neg_neg (a b : Rat) : compare (-a) (-b) = (compare a b).swap := by
  rcases lt_trichotomy a b with h | rfl | h
  · rw [compare_lt_iff_lt.2 h, compare_gt_iff_gt.2 (neg_lt_neg h)]; rfl
  · rw [compare_eq_iff_eq.2 rfl, compare_eq_iff_eq.2 rfl]; rfl
  · rw [compare_gt_iff_gt.2 h, compare_lt_iff_lt.2 (neg_lt_neg h)]; rfl

theorem ratio_positive {m : Nat} {e : Int} (hm : 0 < m) : ratio (.finite .positive m e hm) = size m e := rfl

theorem ratio_negative {m : Nat} {e : Int} (hm : 0 < m) : ratio (.finite .negative m e hm) = -size m e := by
  simp [ratio, size, Sign.apply]

theorem ratio_zero (s : Sign) : ratio (.zero s) = 0 := rfl

/-- Comparing finite parts compares their rational numbers. -/
theorem compare_eq {f g : UnpackedFloat} (hf : Canonical f) (hg : Canonical g) (hff : f.isFinite) (hgf : g.isFinite) :
    f.compare g = some (compare (ratio f) (ratio g)) := by
  cases f with
  | infinity s => cases hff
  | notANumber => cases hff
  | zero s =>
    cases g with
    | infinity t => cases hgf
    | notANumber => cases hgf
    | zero t => rw [ratio_zero, ratio_zero, compare_eq_iff_eq.2 rfl]; rfl
    | finite t n k hn =>
      have hpos := size_pos hn k
      cases t with
      | positive => rw [ratio_zero, ratio_positive, compare_lt_iff_lt.2 hpos]; rfl
      | negative => rw [ratio_zero, ratio_negative, compare_gt_iff_gt.2 (neg_lt_zero.2 hpos)]; rfl
  | finite s m e hm =>
    have hpos := size_pos hm e
    cases g with
    | infinity t => cases hgf
    | notANumber => cases hgf
    | zero t =>
      cases s with
      | positive => rw [ratio_zero, ratio_positive, compare_gt_iff_gt.2 hpos]; rfl
      | negative => rw [ratio_zero, ratio_negative, compare_lt_iff_lt.2 (neg_lt_zero.2 hpos)]; rfl
    | finite t n k hn =>
      have hpos' := size_pos hn k
      cases s with
      | positive =>
        cases t with
        | positive => exact congrArg some (compare_size hf.1 hg.1)
        | negative => rw [ratio_positive, ratio_negative, compare_gt_iff_gt.2 (by linarith)]; rfl
      | negative =>
        cases t with
        | positive => rw [ratio_positive, ratio_negative, compare_lt_iff_lt.2 (by linarith)]; rfl
        | negative => rw [ratio_negative, ratio_negative, compare_neg_neg, ← compare_size hf.1 hg.1]; rfl

theorem isFinite_eq (x : Float) : x.isFinite = (parts x).isFinite := rfl

theorem isNaN_of_isFinite {x : Float} (hx : x.isFinite) : x.isNaN = false := by
  have hisNaN : x.isNaN = (parts x).isNaN := rfl
  rw [isFinite_eq] at hx
  rw [hisNaN]
  cases hp : parts x with
  | infinity s => rfl
  | notANumber => rw [hp] at hx; cases hx
  | zero s => rfl
  | finite s m e hm => rfl

theorem lt_iff_compare (x y : Float) : x < y ↔ (parts x).compare (parts y) = some .lt := by
  have hlt : x < y ↔ decide (((parts x).compare (parts y) == some .lt) = true) = true := Iff.rfl
  rw [hlt, decide_eq_true_eq, beq_iff_eq]

/-- **Order.** Finite numbers are ordered as their values. -/
theorem lt_iff_value {x y : Float} (hx : x.isFinite) (hy : y.isFinite) : x < y ↔ value x < value y := by
  rw [lt_iff_compare, compare_eq (parts_canonical x) (parts_canonical y) hx hy, Option.some.injEq, compare_lt_iff_lt]
  rfl

theorem le_iff_compare (x y : Float) : x ≤ y ↔ ((parts x).compare (parts y)).any (·.isLE) = true := by
  have hle : x ≤ y ↔ decide (((parts x).compare (parts y)).any (·.isLE) = true) = true := Iff.rfl
  rw [hle, decide_eq_true_eq]

theorem le_of_lt {x y : Float} (h : x < y) : x ≤ y := by
  rw [lt_iff_compare] at h
  rw [le_iff_compare, h]
  rfl

theorem compare_infinity {f : UnpackedFloat} (h : f.isFinite) :
    (infinity .positive).compare f = some .gt ∧ f.compare (infinity .negative) = some .gt := by
  cases f with
  | infinity s => cases h
  | notANumber => cases h
  | zero s => exact ⟨rfl, rfl⟩
  | finite s m e hm => cases s <;> exact ⟨rfl, rfl⟩

/-- What lies between finite numbers is finite. -/
theorem isFinite_of_le_of_le {x y z : Float} (hx : x.isFinite) (hz : z.isFinite) (h : x ≤ y) (h' : y ≤ z) : y.isFinite := by
  rw [le_iff_compare] at h h'
  rw [isFinite_eq] at hx hz ⊢
  cases hy : parts y with
  | infinity s =>
    rw [hy] at h h'
    cases s with
    | positive => rw [(compare_infinity hz).1] at h'; cases h'
    | negative => rw [(compare_infinity hx).2] at h; cases h
  | notANumber =>
    rw [hy] at h'
    cases h'
  | zero s => rfl
  | finite s m e hm => rfl

theorem isFinite_clampUnit (x : Float) : (Scalar.clampUnit x).isFinite := by
  have hzero : (Scalar.ofNat 0 : Float).isFinite = true := by decide +kernel
  have hone : (Scalar.ofNat 1 : Float).isFinite = true := by decide +kernel
  unfold Scalar.clampUnit
  dsimp only
  by_cases hpos : Scalar.ofNat 0 < x
  · rw [if_pos hpos]
    by_cases hlt : x < Scalar.ofNat 1
    · rw [if_pos hlt]
      exact isFinite_of_le_of_le hzero hone (le_of_lt hpos) (le_of_lt hlt)
    · rw [if_neg hlt]
      exact hone
  · rw [if_neg hpos]
    split
    · exact hzero
    · exact hone

/-! ## Adding nothing -/

theorem parts_add (x y : Float) (h : Canonical (UnpackedFloat.add Format.binary64 (parts x) (parts y))) :
    parts (x + y) = UnpackedFloat.add Format.binary64 (parts x) (parts y) := parts_ofParts h

theorem parts_sub (x y : Float) (h : Canonical (UnpackedFloat.sub Format.binary64 (parts x) (parts y))) :
    parts (x - y) = UnpackedFloat.sub Format.binary64 (parts x) (parts y) := parts_ofParts h

theorem parts_mul (x y : Float) (h : Canonical (UnpackedFloat.mul Format.binary64 (parts x) (parts y))) :
    parts (x * y) = UnpackedFloat.mul Format.binary64 (parts x) (parts y) := parts_ofParts h

theorem parts_sub_self {x : Float} (hx : x.isFinite) : parts (x - x) = .zero .positive := by
  have hsub : UnpackedFloat.sub Format.binary64 (parts x) (parts x) = .zero .positive := by
    rw [isFinite_eq] at hx
    cases hp : parts x with
    | infinity s => rw [hp] at hx; cases hx
    | notANumber => rw [hp] at hx; cases hx
    | zero s => cases s <;> rfl
    | finite s m e hm => simp [UnpackedFloat.sub, UnpackedFloat.normalize]
  rw [parts_sub x x (by rw [hsub]; trivial), hsub]

/-- Nothing times a finite number is nothing. -/
theorem parts_zero_mul {x c : Float} {s : Sign} (hx : parts x = .zero s) (hc : c.isFinite) :
    ∃ t, parts (x * c) = .zero t := by
  have hmul : ∃ t, UnpackedFloat.mul Format.binary64 (parts x) (parts c) = .zero t := by
    rw [isFinite_eq] at hc
    rw [hx]
    cases hp : parts c with
    | infinity t => rw [hp] at hc; cases hc
    | notANumber => rw [hp] at hc; cases hc
    | zero t => exact ⟨s * t, rfl⟩
    | finite t m e hm => exact ⟨s * t, rfl⟩
  obtain ⟨t, ht⟩ := hmul
  exact ⟨t, by rw [parts_mul x c (by rw [ht]; trivial), ht]⟩

theorem beq_iff_compare (x y : Float) : (x == y) = true ↔ (parts x).compare (parts y) = some .eq := by
  have hbeq : (x == y) = ((parts x).compare (parts y) == some .eq) := rfl
  rw [hbeq, beq_iff_eq]

theorem beq_add_zero {x y : Float} {s : Sign} (hx : x.isFinite) (hy : parts y = .zero s) : (x + y == x) = true := by
  have hcanonical := parts_canonical x
  rw [beq_iff_compare]
  rw [isFinite_eq] at hx
  cases hp : parts x with
  | infinity t => rw [hp] at hx; cases hx
  | notANumber => rw [hp] at hx; cases hx
  | zero t =>
    have hadd : ∃ u, UnpackedFloat.add Format.binary64 (parts x) (parts y) = .zero u := by
      rw [hp, hy]
      cases t <;> cases s <;> exact ⟨_, rfl⟩
    obtain ⟨u, hu⟩ := hadd
    rw [parts_add x y (by rw [hu]; trivial), hu]
    rfl
  | finite t m e hm =>
    have hadd : UnpackedFloat.add Format.binary64 (parts x) (parts y) = parts x := by rw [hp, hy]; rfl
    rw [parts_add x y (by rw [hadd]; exact hcanonical), hadd, ← hp,
      compare_eq hcanonical hcanonical (by rw [hp]; rfl) (by rw [hp]; rfl), compare_eq_iff_eq.2 rfl]

/-- **A line between equal ends.** A finite number plus any part of its difference from itself is the number. -/
theorem beq_add_sub_self_mul {x c : Float} (hx : x.isFinite) (hc : c.isFinite) : (x + (x - x) * c == x) = true := by
  obtain ⟨t, ht⟩ := parts_zero_mul (parts_sub_self hx) hc
  exact beq_add_zero hx ht

end Tessera.Floats

namespace Tessera

/-- Scalars whose finite members are ordered as rational numbers are. -/
class Scalar.Valued (α : Type) [Scalar α] where
  value : α → Rat
  lt_iff : ∀ {x y : α}, Scalar.isFinite x = true → Scalar.isFinite y = true → (x < y ↔ value x < value y)

instance : Scalar.Valued Rat := ⟨id, fun _ _ => Iff.rfl⟩

instance : Scalar.Valued Float := ⟨Floats.value, fun hx hy => Floats.lt_iff_value hx hy⟩

end Tessera
