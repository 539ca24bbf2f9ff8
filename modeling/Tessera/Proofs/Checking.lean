import Mathlib
import Tessera.Proofs.Magnitudes
/-!
# What a check of settings accepts

A number is compared with a bound as the rational numbers that both stand for, of whatever kinds they are
(`Value.numberLe_iff`); what is no number or not finite lies between no bounds. So a bounded field passes exactly when it
fits, or when it has no value at all (`Draft.checkBounded_iff`), and a draft passes exactly when it is sound but for values
that are missing (`Draft.validate_iff`). All that is refused is refused as a fault of the settings, except where a check
takes the kind of a value for granted, or where the text of its error cannot be made of the value
(`Draft.validate_stumbles_iff`).
-/

namespace Tessera

/-! ## Comparing numbers -/

namespace Floats

open Decimal Float.Model Float.Model.UnpackedFloat

theorem isNegative_of_negative {x : Float} {m : Nat} {e : Int} {hm : 0 < m} (h : parts x = .finite .negative m e hm) :
    isNegative x = true := by
  rw [parts, Float.Model.unpack, unpack_eq] at h
  have hbit : @unpackSign Format.binary64 x.toModel.toBits.toBitVec ≠ 0#1 := by
    have hsign := (ofFields_eq_finite h).1
    unfold Sign.ofBitVec at hsign
    split_ifs at hsign with hbit
    exact hbit
  have hshift : (x.toBits >>> 63).toNat ≠ 0 := by
    rw [UInt64.toNat_shiftRight, Nat.shiftRight_eq_div_pow]
    exact fun hzero => hbit (BitVec.eq_of_toNat_eq ((toNat_unpackSign _).trans hzero))
  rw [isNegative, bne_iff_ne]
  exact fun hzero => hshift (by rw [hzero]; rfl)

theorem decode_of_zero {x : Float} {s : Sign} (h : parts x = .zero s) : decode x = ⟨0, -1074⟩ := by
  have hfields : ∀ (t : Sign) (ev : BitVec 11) (mv : BitVec 52), ofFields t ev mv = .zero s → ev.toNat = 0 ∧ mv.toNat = 0 := by
    intro t ev mv hzero
    unfold ofFields at hzero
    split_ifs at hzero with _ _ hev hmv
    rw [hev, hmv]
    exact ⟨rfl, rfl⟩
  rw [parts, Float.Model.unpack, unpack_eq] at h
  obtain ⟨hev, hmv⟩ := hfields _ _ _ h
  rw [toNat_unpackExponent] at hev
  rw [toNat_unpackMantissa] at hmv
  have hfield : x.toBits.toNat / Nat.pow 2 52 % Nat.pow 2 11 = 0 := hev
  have hfraction : x.toBits.toNat % Nat.pow 2 52 = 0 := hmv
  rw [decode, if_pos hfield, hfraction]

/-- The quotient of the decoded parts of a number is its size. -/
theorem num_div_den (m : Nat) (e : Int) : ((Binary.num ⟨m, e⟩ : Nat) : Rat) / (Binary.den ⟨m, e⟩ : Nat) = size m e := by
  have hnum : ((Binary.num ⟨m, e⟩ : Nat) : Rat) = m * 2 ^ e.toNat := by
    change ((m * 2 ^ e.toNat : Nat) : Rat) = _
    push_cast
    rfl
  have hden : ((Binary.den ⟨m, e⟩ : Nat) : Rat) = 2 ^ (-e).toNat := by
    change ((2 ^ (-e).toNat : Nat) : Rat) = _
    push_cast
    rfl
  rw [hnum, hden, size, mul_div_assoc, ← zpow_natCast, ← zpow_natCast, ← zpow_sub₀ two_ne_zero]
  congr 2
  omega

/-- The value of a finite number from its sign and its decoded parts. -/
theorem value_eq_decode {x : Float} (hx : x.isFinite) :
    value x = ((if isNegative x then -((decode x).num : Int) else (decode x).num : Int) : Rat) / ((decode x).den : Nat) := by
  rw [isFinite_eq] at hx
  rw [value]
  cases hp : parts x with
  | infinity s => rw [hp] at hx; cases hx
  | notANumber => rw [hp] at hx; cases hx
  | zero s =>
    have hnum : (decode x).num = 0 := by rw [decode_of_zero hp]; exact Nat.zero_mul _
    rw [hnum, ratio_zero]
    split <;> simp
  | finite s m e hm =>
    rw [decode_eq hp]
    cases s with
    | positive =>
      rw [isNegative_of_positive hp, ratio_positive, ← num_div_den]
      simp
    | negative =>
      rw [isNegative_of_negative hp, ratio_negative, ← num_div_den, if_pos rfl]
      push_cast
      exact (neg_div _ _).symm

end Floats

theorem compare_mul_eq (n k : Int) {d : Nat} (hd : 0 < d) : compare (n * (d : Int)) k = compare (n : Rat) (k / d) := by
  have hpos : (0 : Rat) < d := by exact_mod_cast hd
  rcases lt_trichotomy (n * (d : Int)) k with h | h | h
  · have hlt : (n : Rat) < k / d := (lt_div_iff₀ hpos).2 (by exact_mod_cast h)
    rw [compare_lt_iff_lt.2 h, compare_lt_iff_lt.2 hlt]
  · have heq : (n : Rat) = k / d := (eq_div_iff hpos.ne').2 (by exact_mod_cast h)
    rw [compare_eq_iff_eq.2 h, compare_eq_iff_eq.2 heq]
  · have hgt : (k / d : Rat) < n := (div_lt_iff₀ hpos).2 (by exact_mod_cast h)
    rw [compare_gt_iff_gt.2 h, compare_gt_iff_gt.2 hgt]

/-- A whole number is compared with a real one as rational numbers are. -/
theorem Number.compareReal_of_isFinite (n : Int) {x : Float} (hx : x.isFinite) :
    compareReal n x = some (compare (n : Rat) (Floats.value x)) := by
  have hden : 0 < (Decimal.decode x).den := Nat.two_pow_pos _
  have hnan := Floats.isNaN_of_isFinite hx
  simp only [compareReal, hnan, hx, Bool.not_true, Bool.false_eq_true, if_false]
  rw [Floats.value_eq_decode hx, compare_mul_eq n _ hden]

/-- The rational number that a value is. Truth values, and numbers that are not finite, are none. -/
def Value.rational? : Value → Option Rat
  | .int n => some n
  | .float x => if x.isFinite then some (Floats.value x) else none
  | _ => none

namespace Value

theorem rational?_float {x : Float} {q : Rat} (h : rational? (.float x) = some q) : x.isFinite ∧ Floats.value x = q := by
  rw [rational?] at h
  split at h
  · exact ⟨‹_›, Option.some.inj h⟩
  · cases h

/-- **Comparing is exact.** -/
theorem numberLe_iff {v w : Value} {p q : Rat} (hv : v.rational? = some p) (hw : w.rational? = some q) :
    v.numberLe w = true ↔ p ≤ q := by
  cases v with
  | int n =>
    cases hv
    cases w with
    | int k =>
      cases hw
      simp [numberLe, Number.ofValue, Number.le, pure, Except.pure]
    | float x =>
      obtain ⟨hx, rfl⟩ := rational?_float hw
      simp only [numberLe, Number.ofValue, Number.le, pure, Except.pure, Number.compareReal_of_isFinite n hx,
        Bool.or_eq_true, beq_iff_eq, Option.some.injEq, compare_lt_iff_lt, compare_eq_iff_eq]
      exact le_iff_lt_or_eq.symm
    | _ => cases hw
  | float x =>
    obtain ⟨hx, rfl⟩ := rational?_float hv
    cases w with
    | int k =>
      cases hw
      simp only [numberLe, Number.ofValue, Number.le, pure, Except.pure, Number.compareReal_of_isFinite k hx,
        Bool.or_eq_true, beq_iff_eq, Option.some.injEq, compare_gt_iff_gt, compare_eq_iff_eq]
      exact (le_iff_lt_or_eq.trans (or_congr_right eq_comm)).symm
    | float y =>
      obtain ⟨hy, rfl⟩ := rational?_float hw
      simp only [numberLe, Number.ofValue, Number.le, pure, Except.pure, decide_eq_true_eq]
      exact Floats.le_iff_value hx hy
    | _ => cases hw
  | _ => cases hv

end Value

/-! ## Bounded fields -/

namespace Field

/-- The closed bounds of a bounded field as rational numbers. -/
def range? (f : Field) : Option (Rat × Rat) :=
  f.bounds?.bind fun b => b.1.rational?.bind fun lo => b.2.rational?.map fun hi => (lo, hi)

/-- What a bounded field is to hold: a number within the bounds, and an integer where the field takes nothing else. -/
def Fits (f : Field) (v : Value) : Prop :=
  ∃ lo hi q : Rat, f.range? = some (lo, hi) ∧ v.rational? = some q ∧ lo ≤ q ∧ q ≤ hi ∧ (f.isWhole → ∃ n, v = .int n)

/-- Bounds are integers where a field takes nothing else, and otherwise finite numbers. -/
theorem bounds?_cases {f : Field} {lo hi : Value} (h : f.bounds? = some (lo, hi)) :
    (f.isWhole = true ∧ ∃ a b, lo = .int a ∧ hi = .int b) ∨
      (f.isWhole = false ∧ ∃ x y, lo = .float x ∧ hi = .float y ∧ x.isFinite ∧ y.isFinite) := by
  have hfinite : (0.0 : Float).isFinite ∧ (0.01 : Float).isFinite ∧ (1.0 : Float).isFinite ∧ (10.0 : Float).isFinite := by
    decide +kernel
  obtain ⟨hzero, hleast, hone, hten⟩ := hfinite
  cases f with
  | tileWidth | tileHeight | numPalettes | colorsPerPalette | bitsPerChannel | replaceIterations =>
    cases h
    exact .inl ⟨rfl, _, _, rfl, rfl⟩
  | fractionOfPixels =>
    cases h
    exact .inr ⟨rfl, _, _, rfl, rfl, hleast, hten⟩
  | ditherWeight =>
    cases h
    exact .inr ⟨rfl, _, _, rfl, rfl, hleast, hone⟩
  | alpha | finalAlpha | minColorFactor | minPaletteFactor =>
    cases h
    exact .inr ⟨rfl, _, _, rfl, rfl, hzero, hone⟩
  | dither | ditherPattern | colorZero | sharedColor | transparentColor => cases h

theorem bounds?_isWritable {f : Field} {lo hi : Value} (h : f.bounds? = some (lo, hi)) :
    lo.isWritable = true ∧ hi.isWritable = true := by
  cases f <;> cases h <;> decide +kernel

end Field

/-- Causes that lie in the settings, or in the image that is handed in. -/
def Error.isConfiguration : Error → Bool
  | .notNumber .. => true
  | .notInteger .. => true
  | .outside .. => true
  | .notMember .. => true
  | .hexLength _ => true
  | .hexDigits _ => true
  | .pixelBuffer => true
  | .fewSlots .. => true
  | .emptyImage .. => true
  | .unevenTiles .. => true
  | _ => false

section Reject

variable {β : Type} {e e' : Error}

/-- A fault of the settings is told as such when its text can be made. -/
theorem isConfiguration_of_reject (he : e.isConfiguration = true) (h : (reject e : Result β) = .error e') :
    e'.isConfiguration = e.isWritable := by
  rw [reject] at h
  cases hw : e.isWritable with
  | true =>
    rw [hw] at h
    cases h
    exact he
  | false =>
    rw [hw] at h
    cases h
    rfl

end Reject

namespace Draft

section Bounded

variable {f : Field} {lo hi v : Value} {a b q : Rat}

theorem fits_iff (hb : f.bounds? = some (lo, hi)) (hlo : lo.rational? = some a) (hhi : hi.rational? = some b)
    (hv : v.rational? = some q) (hw : f.isWhole → ∃ n, v = .int n) :
    f.Fits v ↔ v.numberLe hi = true ∧ lo.numberLe v = true := by
  have hrange : f.range? = some (a, b) := by simp [Field.range?, hb, hlo, hhi]
  rw [Value.numberLe_iff hv hhi, Value.numberLe_iff hlo hv]
  constructor
  · rintro ⟨a', b', q', hr, hq, hmost, hleast, -⟩
    rw [hrange] at hr
    rw [hv] at hq
    cases hr
    cases hq
    exact ⟨hleast, hmost⟩
  · rintro ⟨hleast, hmost⟩
    exact ⟨a, b, q, hrange, hv, hmost, hleast, hw⟩

theorem not_fits (h : v.rational? = none) : ¬ f.Fits v := by
  rintro ⟨_, _, _, -, hq, -⟩
  rw [h] at hq
  cases hq

theorem checkBounded_of_bounds (hb : f.bounds? = some (lo, hi)) (hv : v ≠ .null) :
    checkBounded f v = .ok () ↔ f.Fits v := by
  rw [checkBounded, hb]
  cases v with
  | null => exact absurd rfl hv
  | int n =>
    rcases Field.bounds?_cases hb with ⟨-, i, k, rfl, rfl⟩ | ⟨-, x, y, rfl, rfl, hx, hy⟩
    · exact checkRange_iff.trans (fits_iff hb rfl rfl rfl fun _ => ⟨n, rfl⟩).symm
    · exact checkRange_iff.trans (fits_iff hb (if_pos hx) (if_pos hy) rfl fun _ => ⟨n, rfl⟩).symm
  | float x =>
    rcases Field.bounds?_cases hb with ⟨hwhole, -⟩ | ⟨hwhole, lo, hi, rfl, rfl, hlo, hhi⟩
    · simp only [hwhole, if_true]
      refine ⟨fun h => absurd h (reject_ne_ok _ _), ?_⟩
      rintro ⟨_, _, _, -, -, -, -, hint⟩
      obtain ⟨n, hn⟩ := hint hwhole
      cases hn
    · simp only [hwhole, Bool.false_eq_true, if_false]
      rw [checkRange_iff]
      by_cases hx : x.isFinite = true
      · exact (fits_iff (v := .float x) hb (if_pos hlo) (if_pos hhi) (if_pos hx) (by simp [hwhole])).symm
      · -- what is not finite lies between no finite bounds
        refine ⟨?_, fun h => absurd h (not_fits (if_neg hx))⟩
        rintro ⟨hmost, hleast⟩
        refine absurd ?_ hx
        exact Floats.isFinite_of_le_of_le hlo hhi (of_decide_eq_true hleast) (of_decide_eq_true hmost)
  | bool | text | list | dict | mode | pattern | family | zero =>
    exact ⟨fun h => absurd h (reject_ne_ok _ _), fun h => absurd h (not_fits rfl)⟩

/-- **One bounded field.** It passes when it fits or when it has no value. -/
theorem checkBounded_iff : checkBounded f v = .ok () ↔ (f.bounds?.isSome → f.Fits v ∨ v = .null) := by
  cases hb : f.bounds? with
  | none => simp [checkBounded, hb, pure, Except.pure]
  | some bounds =>
    obtain ⟨lo, hi⟩ := bounds
    by_cases hv : v = .null
    · simp [checkBounded, hb, hv, pure, Except.pure]
    · simp [checkBounded_of_bounds hb hv, hv]

theorem isConfiguration_of_checkBounded {e : Error} (h : checkBounded f v = .error e) : e.isConfiguration = v.isWritable := by
  have hrange : ∀ lo hi v, f.bounds? = some (lo, hi) → checkRange f lo hi v = .error e →
      e.isConfiguration = v.isWritable := by
    intro lo hi v hb hr
    obtain ⟨hlo, hhi⟩ := Field.bounds?_isWritable hb
    rw [checkRange] at hr
    split at hr
    · cases hr
    · rw [isConfiguration_of_reject rfl hr, Error.isWritable, hlo, hhi, Bool.and_true, Bool.and_true]
  rw [checkBounded] at h
  split at h
  · cases h
  · rename_i lo hi hb
    split at h
    · cases h
    · exact hrange _ _ _ hb h
    · split at h
      · exact isConfiguration_of_reject rfl h
      · exact hrange _ _ _ hb h
    · exact isConfiguration_of_reject rfl h

end Bounded

/-! ## Members and colours -/

section Parts

variable {d : Draft}

theorem exists_colorsPerPalette (h : Field.colorsPerPalette.Fits (d.get .colorsPerPalette) ∨ d.get .colorsPerPalette = .null) :
    (∃ n, d.get .colorsPerPalette = .int n) ∨ d.get .colorsPerPalette = .null := by
  rcases h with ⟨_, _, _, -, -, -, -, hint⟩ | hnull
  · exact .inl (hint rfl)
  · exact .inr hnull

end Parts

end Draft

namespace Hex

theorem isConfiguration_of_parse {s : String} {e : Error} (h : parse s = .error e) : e.isConfiguration = true := by
  rw [parse] at h
  split at h
  · split at h
    · cases h
    · cases h
      rfl
  · cases h
    rfl

end Hex

namespace Value

/-- Whether a value is a text. -/
def IsText (v : Value) : Prop := ∃ s, v = .text s

/-- Whether a value is a text that is read as a colour. -/
def IsColor (v : Value) : Prop := ∃ s c, v = .text s ∧ Hex.parse s = .ok c

variable {v : Value}

theorem isColor_iff : v.IsColor ↔ ∃ c, Hex.ofValue v = .ok c := by
  constructor
  · rintro ⟨s, c, rfl, hc⟩
    exact ⟨c, hc⟩
  · rintro ⟨c, hc⟩
    cases v with
    | text s => exact ⟨s, c, rfl, hc⟩
    | null | bool | int | float | list | dict | mode | pattern | family | zero => cases hc

theorem ofValue_of_not_isText (h : ¬ v.IsText) : Hex.ofValue v = .error (.fault .member) := by
  cases v with
  | text s => exact absurd ⟨s, rfl⟩ h
  | null | bool | int | float | list | dict | mode | pattern | family | zero => rfl

/-- A text that is no colour is a fault of the settings. -/
theorem not_isText_of_ofValue {e : Error} (h : Hex.ofValue v = .error e) (he : e.isConfiguration = false) : ¬ v.IsText := by
  rintro ⟨s, rfl⟩
  rw [Hex.isConfiguration_of_parse h] at he
  cases he

end Value

/-! ## Drafts -/

theorem bind_eq_error {ε β γ : Type} {x : Except ε β} {f : β → Except ε γ} {e : ε} :
    (x >>= f) = .error e ↔ x = .error e ∨ ∃ b, x = .ok b ∧ f b = .error e := by
  cases x with
  | error e => simp [bind, Except.bind]
  | ok b => simp [bind, Except.bind]

theorem forM_eq_ok_iff {ε β : Type} {xs : List β} {f : β → Except ε Unit} :
    xs.forM f = .ok () ↔ ∀ x ∈ xs, f x = .ok () := by
  refine ⟨forM_eq_ok, fun h => ?_⟩
  induction xs with
  | nil => rfl
  | cons x xs ih =>
    exact bind_eq_ok.2 ⟨(), h x List.mem_cons_self, ih fun y hy => h y (List.mem_cons_of_mem _ hy)⟩

/-- Checks in turn fail as the first one does that fails. -/
theorem forM_eq_error_iff {ε β : Type} {xs : List β} {f : β → Except ε Unit} {e : ε} :
    xs.forM f = .error e ↔
      ∃ before x after, xs = before ++ x :: after ∧ (∀ y ∈ before, f y = .ok ()) ∧ f x = .error e := by
  constructor
  · intro h
    induction xs with
    | nil => cases h
    | cons x xs ih =>
      rcases bind_eq_error.1 h with hx | ⟨_, hx, hxs⟩
      · exact ⟨[], x, xs, rfl, by simp, hx⟩
      · obtain ⟨before, y, after, rfl, hbefore, hy⟩ := ih hxs
        refine ⟨x :: before, y, after, rfl, ?_, hy⟩
        exact List.forall_mem_cons.2 ⟨hx, hbefore⟩
  · rintro ⟨before, x, after, rfl, hbefore, hx⟩
    induction before with
    | nil => exact bind_eq_error.2 (.inl hx)
    | cons y before ih =>
      obtain ⟨hy, hbefore⟩ := List.forall_mem_cons.1 hbefore
      exact bind_eq_error.2 (.inr ⟨(), hy, ih hbefore⟩)

theorem Field.mem_all (f : Field) : f ∈ Field.all := by cases f <;> decide

/-- The fields whose values are checked before the colours, in turn. -/
def Field.inTurn : List Field :=
  Field.all.filter (fun f => f.bounds?.isSome) ++ [.dither, .ditherPattern, .colorZero]

/-- What is taken for the value of a field: a bounded number or nothing, or a member of the family. -/
def Field.Takes (f : Field) (v : Value) : Prop :=
  match f with
  | .dither => ∃ m, v = .mode m
  | .ditherPattern => ∃ p, v = .pattern p
  | .colorZero => ∃ z, v = .zero z
  | f => f.bounds?.isSome → f.Fits v ∨ v = .null

/-- The learning rates, which are left to the dither mode when they are missing. -/
def Field.IsRate (f : Field) : Prop := f = .alpha ∨ f = .finalAlpha

namespace Draft

/-- Numbers are within their bounds, where those that may lack a value need none, and members are of their families. -/
structure Checked (mayLack : Field → Prop) (d : Draft) : Prop where
  bounded : ∀ f : Field, f.bounds?.isSome → f.Fits (d.get f) ∨ (mayLack f ∧ d.get f = .null)
  mode : ∃ m, d.get .dither = .mode m
  pattern : ∃ p, d.get .ditherPattern = .pattern p
  zero : ∃ z, d.get .colorZero = .zero z

/-- A draft as it is to be: besides, both colours can be read, and two slots or more are left to optimise. -/
structure Sound (mayLack : Field → Prop) (d : Draft) : Prop extends Checked mayLack d where
  sharedColor : (d.get .sharedColor).IsColor
  transparentColor : (d.get .transparentColor).IsColor
  slots : ∃ z n, d.get .colorZero = .zero z ∧ d.get .colorsPerPalette = .int n ∧ 2 ≤ n - (z.reservedSlots : Int)

/-- The first value that is not taken has an integer of more digits than can be written. -/
def Overlong (d : Draft) : Prop :=
  ∃ before f after, Field.inTurn = before ++ f :: after ∧ (∀ g ∈ before, g.Takes (d.get g)) ∧ ¬ f.Takes (d.get f) ∧
    (d.get f).isWritable = false

/-- What the check takes for granted is not so: the error of a value cannot be told, a colour is no text, or the number of
colours is missing. -/
def Stumbles (d : Draft) : Prop :=
  d.Overlong ∨ d.Checked (fun _ => True) ∧
    (¬ (d.get .sharedColor).IsText ∨ (d.get .sharedColor).IsColor ∧
      (¬ (d.get .transparentColor).IsText ∨ (d.get .transparentColor).IsColor ∧ d.get .colorsPerPalette = .null))

variable {d : Draft}

theorem checked_iff : d.Checked (fun _ => True) ↔ ∀ f ∈ Field.inTurn, f.Takes (d.get f) := by
  constructor
  · rintro ⟨hbounded, hmode, hpattern, hzero⟩ f -
    cases f
    case dither => exact hmode
    case ditherPattern => exact hpattern
    case colorZero => exact hzero
    all_goals exact fun hf => (hbounded _ hf).imp_right And.right
  · intro h
    refine ⟨fun f hf => ?_, h .dither (by decide +kernel), h .ditherPattern (by decide +kernel), h .colorZero (by decide +kernel)⟩
    have hmem : f ∈ Field.inTurn := List.mem_append_left _ (List.mem_filter.2 ⟨f.mem_all, hf⟩)
    have htaken := h f hmem
    cases f
    case dither | ditherPattern | colorZero => cases hf
    all_goals exact (htaken hf).imp_right fun hnull => ⟨trivial, hnull⟩

/-- The check of one field, before the colours. -/
def checkField (d : Draft) (f : Field) : Result Unit :=
  match f with
  | .dither => d.mode >>= fun _ => pure ()
  | .ditherPattern => d.pattern >>= fun _ => pure ()
  | .colorZero => d.zero >>= fun _ => pure ()
  | f => checkBounded f (d.get f)

/-- The check of the colours and the slots, after all else. -/
def checkRest (d : Draft) (z : ColorZero) : Result Unit := do
  let _ ← d.sharedColor
  let _ ← d.transparentColor
  let left ← d.optimisedSlots z
  if left.2 < 2 then .error (.fewSlots left.1 left.2 z) else pure ()

/-- A draft is checked field by field, and then its colours and slots. -/
theorem validate_eq : d.validate = Field.inTurn.forM d.checkField >>= fun _ => d.zero >>= d.checkRest := by
  have hbounded : (Field.all.forM fun f => checkBounded f (d.get f)) =
      (Field.all.filter fun f => f.bounds?.isSome).forM d.checkField := rfl
  have hturns : Field.inTurn.forM d.checkField = (Field.all.filter fun f => f.bounds?.isSome).forM d.checkField >>= fun _ =>
      [.dither, .ditherPattern, .colorZero].forM d.checkField := List.forM_append
  rw [validate, hturns, hbounded]
  cases (Field.all.filter fun f => f.bounds?.isSome).forM d.checkField with
  | error e => rfl
  | ok _ =>
    show (d.mode >>= fun _ => d.pattern >>= fun _ => d.zero >>= d.checkRest) =
      ([.dither, .ditherPattern, .colorZero] : List Field).forM d.checkField >>= fun _ => d.zero >>= d.checkRest
    cases hmode : d.mode <;> cases hpattern : d.pattern <;> cases hzero : d.zero <;>
      simp [checkField, hmode, hpattern, hzero, bind, Except.bind, pure, Except.pure]

theorem checkBounded_cases (f : Field) (v : Value) :
    checkBounded f v = .ok () ∧ (f.bounds?.isSome → f.Fits v ∨ v = .null) ∨
      ∃ e, checkBounded f v = .error e ∧ ¬ (f.bounds?.isSome → f.Fits v ∨ v = .null) ∧ e.isConfiguration = v.isWritable := by
  cases hcheck : checkBounded f v with
  | ok _ => exact .inl ⟨rfl, checkBounded_iff.1 hcheck⟩
  | error e =>
    refine .inr ⟨e, rfl, fun htaken => ?_, isConfiguration_of_checkBounded hcheck⟩
    rw [checkBounded_iff.2 htaken] at hcheck
    cases hcheck

theorem member_cases {β : Type} {x : Result β} {taken : Prop} {writable : Bool} (hok : (∃ b, x = .ok b) ↔ taken)
    (herror : ∀ e, x = .error e → e.isConfiguration = writable) :
    (x >>= fun _ => pure ()) = .ok () ∧ taken ∨
      ∃ e, (x >>= fun _ => pure ()) = .error e ∧ ¬ taken ∧ e.isConfiguration = writable := by
  cases x with
  | ok b => exact .inl ⟨rfl, hok.1 ⟨b, rfl⟩⟩
  | error e =>
    refine .inr ⟨e, rfl, fun htaken => ?_, herror e rfl⟩
    obtain ⟨b, hb⟩ := hok.2 htaken
    cases hb

/-- A field passes when it takes its value, and what it does not take is a fault of the settings if it can be told. -/
theorem checkField_cases (d : Draft) (f : Field) :
    d.checkField f = .ok () ∧ f.Takes (d.get f) ∨
      ∃ e, d.checkField f = .error e ∧ ¬ f.Takes (d.get f) ∧ e.isConfiguration = (d.get f).isWritable := by
  have hbounded := checkBounded_cases f (d.get f)
  cases f
  case dither =>
    refine member_cases (exists_congr fun m => mode_eq_ok_iff) fun e he => ?_
    rw [mode] at he
    split at he
    · cases he
    · exact isConfiguration_of_reject rfl he
  case ditherPattern =>
    refine member_cases (exists_congr fun p => pattern_eq_ok_iff) fun e he => ?_
    rw [pattern] at he
    split at he
    · cases he
    · exact isConfiguration_of_reject rfl he
  case colorZero =>
    refine member_cases (exists_congr fun z => zero_eq_ok_iff) fun e he => ?_
    rw [zero] at he
    split at he
    · cases he
    · exact isConfiguration_of_reject rfl he
  all_goals exact hbounded

theorem validate_of_checked (h : d.Checked fun _ => True) :
    ∃ z, d.get .colorZero = .zero z ∧ d.validate = d.checkRest z := by
  obtain ⟨z, hz⟩ := h.zero
  refine ⟨z, hz, ?_⟩
  have hall : Field.inTurn.forM d.checkField = .ok () := by
    refine forM_eq_ok_iff.2 fun f hf => ?_
    rcases d.checkField_cases f with ⟨hok, -⟩ | ⟨_, -, hnot, -⟩
    · exact hok
    · exact absurd (checked_iff.1 h f hf) hnot
  rw [validate_eq, hall, zero_eq_ok_iff.2 hz]
  rfl

/-- What is not checked is refused, and as a fault of the settings if the error can be told. -/
theorem validate_of_not_checked (h : ¬ d.Checked fun _ => True) :
    ∃ e, d.validate = .error e ∧ (e.isConfiguration = false ↔ d.Overlong) := by
  have htakes : ∀ f, d.checkField f = .ok () ↔ f.Takes (d.get f) := by
    intro f
    rcases d.checkField_cases f with ⟨hok, htaken⟩ | ⟨e, he, hnot, -⟩
    · exact iff_of_true hok htaken
    · exact iff_of_false (by rw [he]; exact fun h => by cases h) hnot
  cases hall : Field.inTurn.forM d.checkField with
  | ok _ => exact absurd (checked_iff.2 fun f hf => (htakes f).1 (forM_eq_ok_iff.1 hall f hf)) h
  | error e =>
    refine ⟨e, by rw [validate_eq, hall]; rfl, fun he => ?_, ?_⟩
    · obtain ⟨before, f, after, hturns, hbefore, hf⟩ := forM_eq_error_iff.1 hall
      rcases d.checkField_cases f with ⟨hok, -⟩ | ⟨e', he', hnot, hwritable⟩
      · rw [hok] at hf
        cases hf
      · rw [he'] at hf
        cases hf
        exact ⟨before, f, after, hturns, fun g hg => (htakes g).1 (hbefore g hg), hnot, hwritable.symm.trans he⟩
    · rintro ⟨before, f, after, hturns, hbefore, hnot, hlong⟩
      rcases d.checkField_cases f with ⟨-, htaken⟩ | ⟨e', he', -, hwritable⟩
      · exact absurd htaken hnot
      -- the first field that is not taken is the first that fails
      · have hfirst := forM_eq_error_iff.2 ⟨before, f, after, hturns, fun g hg => (htakes g).2 (hbefore g hg), he'⟩
        rw [hall] at hfirst
        cases hfirst
        rw [hwritable, hlong]

theorem checkRest_iff {z : ColorZero} :
    d.checkRest z = .ok () ↔ (d.get .sharedColor).IsColor ∧ (d.get .transparentColor).IsColor ∧
      ∃ n, d.get .colorsPerPalette = .int n ∧ 2 ≤ n - (z.reservedSlots : Int) := by
  rw [Value.isColor_iff, Value.isColor_iff]
  constructor
  · intro h
    obtain ⟨c, hshared, h⟩ := bind_eq_ok.1 h
    obtain ⟨k, htransparent, h⟩ := bind_eq_ok.1 h
    obtain ⟨⟨colors, slots⟩, hslots, h⟩ := bind_eq_ok.1 h
    refine ⟨⟨c, hshared⟩, ⟨k, htransparent⟩, ?_⟩
    rw [optimisedSlots] at hslots
    split at hslots
    · rename_i n hn
      cases hslots
      refine ⟨colors, hn, ?_⟩
      by_contra hfew
      rw [not_le] at hfew
      simp only [if_pos hfew] at h
      cases h
    · cases hslots
  · rintro ⟨⟨c, hshared⟩, ⟨k, htransparent⟩, n, hn, htwo⟩
    have hslots : d.optimisedSlots z = .ok (n, n - z.reservedSlots) := by rw [optimisedSlots, hn]; rfl
    refine bind_eq_ok.2 ⟨c, hshared, bind_eq_ok.2 ⟨k, htransparent, bind_eq_ok.2 ⟨_, hslots, ?_⟩⟩⟩
    dsimp only
    rw [if_neg (not_lt.2 htwo)]
    rfl

theorem checkRest_stumbles_iff {z : ColorZero}
    (hcolors : (∃ n, d.get .colorsPerPalette = .int n) ∨ d.get .colorsPerPalette = .null) :
    (∃ e, d.checkRest z = .error e ∧ e.isConfiguration = false) ↔
      ¬ (d.get .sharedColor).IsText ∨ (d.get .sharedColor).IsColor ∧
        (¬ (d.get .transparentColor).IsText ∨ (d.get .transparentColor).IsColor ∧ d.get .colorsPerPalette = .null) := by
  constructor
  · rintro ⟨e, h, he⟩
    rcases bind_eq_error.1 h with hshared | ⟨c, hshared, h⟩
    · exact .inl (Value.not_isText_of_ofValue hshared he)
    refine .inr ⟨Value.isColor_iff.2 ⟨c, hshared⟩, ?_⟩
    rcases bind_eq_error.1 h with htransparent | ⟨k, htransparent, h⟩
    · exact .inl (Value.not_isText_of_ofValue htransparent he)
    refine .inr ⟨Value.isColor_iff.2 ⟨k, htransparent⟩, hcolors.resolve_left ?_⟩
    rintro ⟨n, hn⟩
    -- with a number of colours the last check is a fault of the settings or none
    rcases bind_eq_error.1 h with hslots | ⟨⟨colors, slots⟩, -, h⟩
    · rw [optimisedSlots, hn] at hslots
      cases hslots
    · dsimp only at h
      split at h
      · cases h
        cases he
      · cases h
  · rintro (hshared | ⟨hshared, htransparent | ⟨htransparent, hnull⟩⟩)
    · exact ⟨_, bind_eq_error.2 (.inl (Value.ofValue_of_not_isText hshared)), rfl⟩
    · obtain ⟨c, hshared⟩ := Value.isColor_iff.1 hshared
      exact ⟨_, bind_eq_error.2 (.inr ⟨c, hshared, bind_eq_error.2 (.inl (Value.ofValue_of_not_isText htransparent))⟩), rfl⟩
    · obtain ⟨c, hshared⟩ := Value.isColor_iff.1 hshared
      obtain ⟨k, htransparent⟩ := Value.isColor_iff.1 htransparent
      have hslots : d.optimisedSlots z = .error (.fault .kind) := by rw [optimisedSlots, hnull]; rfl
      exact ⟨_, bind_eq_error.2 (.inr ⟨c, hshared, bind_eq_error.2 (.inr ⟨k, htransparent, bind_eq_error.2 (.inl hslots)⟩)⟩),
        rfl⟩

/-- **What passes.** A draft passes when it is sound, but for numbers that are missing. -/
theorem validate_iff : d.validate = .ok () ↔ d.Sound fun _ => True := by
  by_cases hchecked : d.Checked fun _ => True
  · obtain ⟨z, hz, hrest⟩ := validate_of_checked hchecked
    rw [hrest, checkRest_iff]
    constructor
    · rintro ⟨hshared, htransparent, n, hn, htwo⟩
      exact ⟨hchecked, hshared, htransparent, z, n, hz, hn, htwo⟩
    · rintro ⟨-, hshared, htransparent, z', n, hz', hn, htwo⟩
      rw [hz] at hz'
      cases hz'
      exact ⟨hshared, htransparent, n, hn, htwo⟩
  · obtain ⟨e, he, -⟩ := validate_of_not_checked hchecked
    rw [he]
    exact ⟨fun h => (by cases h), fun h => absurd h.toChecked hchecked⟩

/-- Where everything is taken, nothing is refused. -/
theorem Overlong.not_checked (h : d.Overlong) : ¬ d.Checked fun _ => True := by
  obtain ⟨before, f, after, hturns, -, hnot, -⟩ := h
  intro hchecked
  exact hnot (checked_iff.1 hchecked f (by rw [hturns]; exact List.mem_append_right _ List.mem_cons_self))

/-- **What stumbles.** Where the check is refused for another reason than the settings, it took something for granted. -/
theorem validate_stumbles_iff : (∃ e, d.validate = .error e ∧ e.isConfiguration = false) ↔ d.Stumbles := by
  by_cases hchecked : d.Checked fun _ => True
  · obtain ⟨z, -, hrest⟩ := validate_of_checked hchecked
    have hcolors := exists_colorsPerPalette ((hchecked.bounded .colorsPerPalette rfl).imp_right And.right)
    rw [hrest, checkRest_stumbles_iff hcolors]
    exact ⟨fun h => .inr ⟨hchecked, h⟩, fun h => (h.resolve_left fun hlong => hlong.not_checked hchecked).2⟩
  · obtain ⟨e, he, hlong⟩ := validate_of_not_checked hchecked
    constructor
    · rintro ⟨e', he', hnot⟩
      rw [he] at he'
      cases he'
      exact .inl (hlong.1 hnot)
    · rintro (hover | ⟨hyes, -⟩)
      · exact ⟨e, he, hlong.2 hover⟩
      · exact absurd hyes hchecked

/-- Where nothing is missing but learning rates, what passes is sound. -/
theorem sound_isRate_iff (h : ∀ f : Field, f.bounds?.isSome → d.get f = .null → f.IsRate) :
    d.Sound Field.IsRate ↔ d.Sound fun _ => True := by
  constructor
  · rintro ⟨⟨hbounded, hmode, hpattern, hzero⟩, hshared, htransparent, hslots⟩
    exact ⟨⟨fun f hf => (hbounded f hf).imp_right fun hnull => ⟨trivial, hnull.2⟩, hmode, hpattern, hzero⟩, hshared, htransparent,
      hslots⟩
  · rintro ⟨⟨hbounded, hmode, hpattern, hzero⟩, hshared, htransparent, hslots⟩
    exact ⟨⟨fun f hf => (hbounded f hf).imp_right fun hnull => ⟨h f hf hnull.2, hnull.2⟩, hmode, hpattern, hzero⟩, hshared,
      htransparent, hslots⟩

/-- **The check of settings.** Whatever values the fields hold, a draft passes exactly when every bounded field has a number
within its closed bounds, an integer where it takes nothing else, or no value at all; the three families have members; both
colours are texts that can be read; and the number of colours less the reserved slots is at least two. It is refused for
another reason than the settings exactly when it stumbles. Where no number but a learning rate is missing, both colours are
texts and no integer has more digits than can be written, it passes exactly when it is sound, and is otherwise refused for
the settings. -/
theorem validate_decides (d : Draft) :
    (d.validate = .ok () ↔ d.Sound fun _ => True) ∧
    ((∃ e, d.validate = .error e ∧ e.isConfiguration = false) ↔ d.Stumbles) ∧
    ((∀ f : Field, f.bounds?.isSome → d.get f = .null → f.IsRate) → (d.get .sharedColor).IsText →
      (d.get .transparentColor).IsText → (∀ f : Field, (d.get f).isWritable = true) →
        (d.validate = .ok () ↔ d.Sound Field.IsRate) ∧
        (¬ d.Sound Field.IsRate → ∃ e, d.validate = .error e ∧ e.isConfiguration = true)) := by
  refine ⟨validate_iff, validate_stumbles_iff, fun hmissing hshared htransparent hwritable => ?_⟩
  rw [sound_isRate_iff hmissing]
  refine ⟨validate_iff, fun hunsound => ?_⟩
  cases hv : d.validate with
  | ok _ => exact absurd (validate_iff.1 hv) hunsound
  | error e =>
    refine ⟨e, rfl, ?_⟩
    by_contra hother
    rcases validate_stumbles_iff.1 ⟨e, hv, Bool.eq_false_iff.2 hother⟩ with
      ⟨_, f, _, -, -, -, hlong⟩ | ⟨-, hnot | ⟨-, hnot | ⟨-, hnull⟩⟩⟩
    · rw [hwritable f] at hlong
      cases hlong
    · exact hnot hshared
    · exact hnot htransparent
    · rcases hmissing .colorsPerPalette rfl hnull with h | h <;> cases h

/-- The settings that are there at first lack nothing but learning rates, and they are sound. -/
theorem validate_decides_initial : initial.validate = .ok () ∧ initial.Sound Field.IsRate := by
  have hmissing : ∀ f : Field, f.bounds?.isSome → initial.get f = .null → f.IsRate := by
    intro f _ hnull
    cases f
    case alpha => exact .inl rfl
    case finalAlpha => exact .inr rfl
    all_goals cases hnull
  have hwritable : ∀ f : Field, (initial.get f).isWritable = true := by
    intro f
    cases f <;> decide +kernel
  exact ⟨rfl, (((validate_decides initial).2.2 hmissing ⟨_, rfl⟩ ⟨_, rfl⟩ hwritable).1).1 rfl⟩

/-- A tile width that is missing passes, although it is no learning rate. A missing number of colours, a missing colour and a
tile width of too many digits are refused, but not as faults of the settings. -/
theorem validate_unsound :
    ((initial.set .tileWidth .null).validate = .ok () ∧ ¬ (initial.set .tileWidth .null).Sound Field.IsRate) ∧
      (initial.set .colorsPerPalette .null).validate = .error (.fault .kind) ∧
      (initial.set .sharedColor .null).validate = .error (.fault .member) ∧
      (initial.set .tileWidth (.int (10 ^ Decimal.maxDigits))).validate = .error (.fault .notNumber) ∧
      Error.isConfiguration (.fault .kind) = false ∧ Error.isConfiguration (.fault .member) = false ∧
      Error.isConfiguration (.fault .notNumber) = false := by
  refine ⟨⟨rfl, ?_⟩, rfl, rfl, ?_, rfl, rfl, rfl⟩
  · rintro ⟨⟨hbounded, -⟩, -⟩
    rcases hbounded .tileWidth rfl with hfits | ⟨hrate | hrate, -⟩
    · exact not_fits rfl hfits
    · cases hrate
    · cases hrate
  · have hlarge : ¬ (10 : Int) ^ Decimal.maxDigits ≤ 32 := by
      have hmore : (10 : Int) ^ 2 ≤ 10 ^ Decimal.maxDigits := pow_le_pow_right₀ (by decide) (by decide)
      generalize (10 : Int) ^ Decimal.maxDigits = n at hmore
      omega
    have hlong : (Value.int (10 ^ Decimal.maxDigits)).isWritable = false := by
      simp [Value.isWritable, Decimal.isWritable, Int.natAbs_pow, Nat.pow_eq]
    have hwidth : checkBounded .tileWidth (.int (10 ^ Decimal.maxDigits)) = .error (.fault .notNumber) := by
      have hrange : ¬ (Value.numberLe (.int (10 ^ Decimal.maxDigits)) (.int 32) &&
          Value.numberLe (.int 1) (.int (10 ^ Decimal.maxDigits))) = true := by
        simp [Value.numberLe, Number.ofValue, Number.le, pure, Except.pure, hlarge]
      show checkRange .tileWidth (.int 1) (.int 32) (.int (10 ^ Decimal.maxDigits)) = _
      rw [checkRange, if_neg hrange, reject, if_neg (by simp [Error.isWritable, hlong])]
      rfl
    exact bind_eq_error.2 (.inl (bind_eq_error.2 (.inl hwidth)))

end Draft

end Tessera
