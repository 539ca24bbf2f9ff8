import Mathlib
import Tessera.Proofs.Choice
import Tessera.Proofs.Exact
import Tessera.Proofs.Floats
/-!
# What is not negative

A choice of the greatest that marks some places with minus one passes them over as long as one of the others is not negative
(`Pick.exists_greatest?_outranks`). The scalars on which that rests, rational and floating-point numbers alike, hold that
a squared distance is never chosen after minus one, be it infinite or no number at all (`Scalar.Signed`).
-/

namespace Tessera

/-! ## Choices that pass over a mark -/

namespace Pick

variable {α : Type} [Scalar α]

/-- A value is chosen before another one, whichever of them comes first. -/
def Outranks (x y : α) : Prop := isMore x y = true ∧ isMore y x = false

theorem not_outranks_self (x : α) : ¬ Outranks x x := fun h => Bool.noConfusion (h.1.symm.trans h.2)

theorem greatestFrom_outranks {mark : α} (i place : Nat) {best : α} {xs : List α} (hbest : best = mark ∨ Outranks best mark)
    (hxs : ∀ x ∈ xs, x = mark ∨ Outranks x mark) (hsome : Outranks best mark ∨ ∃ x ∈ xs, Outranks x mark) :
    Outranks (greatestFrom i place best xs).2 mark := by
  induction xs generalizing i place best with
  | nil => exact hsome.resolve_right (by simp)
  | cons x xs ih =>
    obtain ⟨hx, hxs⟩ := List.forall_mem_cons.1 hxs
    simp only [List.mem_cons, exists_eq_or_imp] at hsome
    rw [greatestFrom]
    split
    · rename_i hmore
      refine ih (i + 1) i hx hxs ?_
      rcases hsome with hsome | hsome
      · refine .inl (hx.resolve_left ?_)
        rintro rfl
        rw [hsome.2] at hmore
        cases hmore
      · exact hsome
    · rename_i hmore
      refine ih (i + 1) place hbest hxs ?_
      rcases hsome with hsome | hsome | hsome
      · exact .inl hsome
      · refine .inl (hbest.resolve_left ?_)
        rintro rfl
        exact hmore hsome.1
      · exact .inr hsome

/-- Where places are marked with a value that all others outrank, one of the others is chosen if there is any. -/
theorem exists_greatest?_outranks {mark : α} {xs : List α} (hxs : ∀ x ∈ xs, x = mark ∨ Outranks x mark)
    (hsome : ∃ x ∈ xs, Outranks x mark) :
    ∃ k v, greatest? xs = some (k, v) ∧ xs[k]? = some v ∧ Outranks v mark := by
  obtain ⟨k, v, hk, hv⟩ := exists_greatest? (List.ne_nil_of_mem hsome.choose_spec.1)
  refine ⟨k, v, hk, hv, ?_⟩
  cases xs with
  | nil => cases hv
  | cons x xs =>
    obtain ⟨hx, hxs⟩ := List.forall_mem_cons.1 hxs
    simp only [List.mem_cons, exists_eq_or_imp] at hsome
    have hbest := greatestFrom_outranks 1 0 hx hxs hsome
    have hvalue : (greatestFrom 1 0 x xs).2 = v := by simpa [greatest?] using congrArg (Option.map Prod.snd) hk
    rwa [hvalue] at hbest

theorem outranks_rat {x y : Rat} : Outranks x y ↔ y < x := by
  simp only [Outranks, isMore_rat, decide_eq_true_eq, decide_eq_false_iff_not, not_lt]
  exact ⟨And.left, fun h => ⟨h, h.le⟩⟩

end Pick

/-! ## Signs of floating-point numbers -/

namespace Floats

open Float.Model (Format UnpackedFloat)
open Float.Model.UnpackedFloat

/-- Parts that are not below zero. What is no number is below nothing. -/
def Upward : UnpackedFloat → Prop
  | .finite .negative _ _ _ => False
  | .infinity .negative => False
  | _ => True

theorem upward_ofFields (ev : BitVec 11) (mv : BitVec 52) : Upward (ofFields .positive ev mv) := by
  unfold ofFields
  split
  · split <;> trivial
  · split
    · split <;> trivial
    · trivial

/-- The sign survives the packing into bits, also where the number does not fit and becomes infinite. -/
theorem upward_ofParts {f : UnpackedFloat} (h : Upward f) : Upward (parts (ofParts f)) := by
  have hparts : parts (ofParts f) = unpack Format.binary64 (pack Format.binary64 f) := rfl
  cases f with
  | infinity s => rw [parts_ofParts (f := .infinity s) trivial]; exact h
  | notANumber => rw [parts_ofParts (f := .notANumber) trivial]; exact h
  | zero s => rw [parts_ofParts (f := .zero s) trivial]; exact h
  | finite s m e hm =>
    cases s with
    | negative => cases h
    | positive =>
      rw [hparts, pack]
      dsimp only
      split
      · exact (unpack_packComponents .positive _ _).symm ▸ upward_ofFields _ _
      · split
        · exact (unpack_packComponents .positive _ _).symm ▸ upward_ofFields _ _
        · exact (unpack_packComponents .positive _ _).symm ▸ upward_ofFields _ _

theorem upward_roundWithAccuracy (k : Nat) (e : Int) (a : Accuracy) :
    Upward (roundWithAccuracy Format.binary64 .positive k e a) := by
  unfold roundWithAccuracy
  dsimp only
  split <;> trivial

theorem upward_mul_self (f : UnpackedFloat) : Upward (UnpackedFloat.mul Format.binary64 f f) := by
  cases f with
  | infinity s => cases s <;> trivial
  | notANumber => trivial
  | zero s => trivial
  | finite s m e hm => cases s <;> exact upward_roundWithAccuracy _ _ _

theorem upward_normalize {m : Int} (hm : 0 ≤ m) (e : Int) :
    Upward (UnpackedFloat.normalize Format.binary64 m e .positive) := by
  rcases hm.eq_or_lt with rfl | hpos
  · trivial
  · unfold UnpackedFloat.normalize
    rw [compare_gt_iff_gt.2 hpos]
    exact upward_roundWithAccuracy _ _ _

theorem upward_add {f g : UnpackedFloat} (hf : Upward f) (hg : Upward g) :
    Upward (UnpackedFloat.add Format.binary64 f g) := by
  cases f with
  | infinity s =>
    cases s with
    | negative => cases hf
    | positive =>
      cases g with
      | infinity t => cases t <;> trivial
      | notANumber => trivial
      | zero t => trivial
      | finite t n k hn => trivial
  | notANumber => trivial
  | zero s =>
    cases g with
    | infinity t => exact hg
    | notANumber => trivial
    | zero t => cases s <;> cases t <;> trivial
    | finite t n k hn => exact hg
  | finite s m e hm =>
    cases s with
    | negative => cases hf
    | positive =>
      cases g with
      | infinity t => exact hg
      | notANumber => trivial
      | zero t => trivial
      | finite t n k hn =>
        cases t with
        | negative => cases hg
        | positive =>
          refine upward_normalize ?_ _
          simp only [Sign.apply]
          positivity

theorem upward_sqDist (p q : Rgb Float) : Upward (parts (p.sqDist q)) := by
  have hsquare : ∀ x : Float, Upward (parts (x * x)) := fun x => upward_ofParts (upward_mul_self (parts x))
  exact upward_ofParts (upward_add (upward_ofParts (upward_add (hsquare _) (hsquare _))) (hsquare _))

theorem parts_minus_one : parts (Scalar.ofInt (-1)) = .finite .negative (2 ^ 52) (-52) (by decide) := rfl

theorem parts_nothing : parts (Scalar.ofNat 0) = .zero .positive := rfl

theorem outranks_of_upward {x : Float} (h : Upward (parts x)) : Pick.Outranks x (Scalar.ofInt (-1)) := by
  have hnumber : Scalar.isNaN (Scalar.ofInt (-1) : Float) = false := rfl
  have hisNaN : Scalar.isNaN x = (parts x).isNaN := rfl
  simp only [Pick.Outranks, Pick.isMore, Pick.spoils, hnumber, Bool.not_false, Bool.and_true, Bool.false_and, Bool.or_false,
    Bool.or_eq_true, decide_eq_true_eq, decide_eq_false_iff_not, lt_iff_compare, parts_minus_one, hisNaN]
  cases hp : parts x with
  | infinity s =>
    rw [hp] at h
    cases s with
    | negative => cases h
    | positive => exact ⟨.inl rfl, by simp [UnpackedFloat.compare]⟩
  | notANumber => exact ⟨.inr rfl, by simp [UnpackedFloat.compare]⟩
  | zero s => exact ⟨.inl rfl, by simp [UnpackedFloat.compare]⟩
  | finite s n k hn =>
    rw [hp] at h
    cases s with
    | negative => cases h
    | positive => exact ⟨.inl rfl, by simp [UnpackedFloat.compare]⟩

theorem upward_of_nonneg {x : Float} (h : Scalar.ofNat 0 ≤ x) : Upward (parts x) := by
  rw [le_iff_compare, parts_nothing] at h
  cases hp : parts x with
  | infinity s =>
    rw [hp] at h
    cases s with
    | negative => cases h
    | positive => trivial
  | notANumber => trivial
  | zero s => trivial
  | finite s n k hn =>
    rw [hp] at h
    cases s with
    | negative => cases h
    | positive => trivial

end Floats

/-! ## Scalars with signs -/

/-- Scalars of which neither those that are not negative nor any squared distance is passed over for minus one. -/
class Scalar.Signed (α : Type) [Scalar α] : Prop where
  outranks_of_nonneg : ∀ {x : α}, Scalar.ofNat 0 ≤ x → Pick.Outranks x (Scalar.ofInt (-1))
  outranks_zero : Pick.Outranks (Scalar.ofNat 0 : α) (Scalar.ofInt (-1))
  outranks_sqDist : ∀ p q : Rgb α, Pick.Outranks (p.sqDist q) (Scalar.ofInt (-1))

instance Scalar.signedRat : Scalar.Signed Rat where
  outranks_of_nonneg h := Pick.outranks_rat.2 (lt_of_lt_of_le neg_one_lt_zero h)
  outranks_zero := Pick.outranks_rat.2 neg_one_lt_zero
  outranks_sqDist p q := Pick.outranks_rat.2 (lt_of_lt_of_le neg_one_lt_zero (p.sqDist_nonneg q))

instance Scalar.signedFloat : Scalar.Signed Float where
  outranks_of_nonneg h := Floats.outranks_of_upward (Floats.upward_of_nonneg h)
  outranks_zero := Floats.outranks_of_upward (Floats.parts_nothing ▸ trivial)
  outranks_sqDist p q := Floats.outranks_of_upward (Floats.upward_sqDist p q)

end Tessera
