import Mathlib
import Tessera.Fit.Error
/-!
# What a choice picks

`Pick.least?` names a place of its list and the value that stands there, whatever the scalars are: these facts need no
law of arithmetic. With rational scalars the value is a lower bound of the list, and sorting by a value puts lesser ones
first.
-/

namespace Tessera.Pick

/-! ## Any scalars -/

section Scalar

variable {α : Type} [Scalar α]

/-- The scan ends with what it started with, or with a later place and its value. -/
theorem leastFrom_cases (i place : Nat) (best : α) (xs : List α) :
    leastFrom i place best xs = (place, best) ∨
      ∃ k, (leastFrom i place best xs).1 = i + k ∧ xs[k]? = some (leastFrom i place best xs).2 := by
  induction xs generalizing i place best with
  | nil => exact Or.inl rfl
  | cons x xs ih =>
    simp only [leastFrom]
    split
    · rcases ih (i + 1) i x with h | ⟨k, hk, hx⟩
      · exact Or.inr ⟨0, by rw [h]; rfl, by rw [h]; rfl⟩
      · exact Or.inr ⟨k + 1, by rw [hk]; omega, by simpa using hx⟩
    · rcases ih (i + 1) place best with h | ⟨k, hk, hx⟩
      · exact Or.inl h
      · exact Or.inr ⟨k + 1, by rw [hk]; omega, by simpa using hx⟩

/-- A list that is not empty has a least place, and the value is the one in that place. -/
theorem exists_least? {xs : List α} (h : xs ≠ []) :
    ∃ k v, least? xs = some (k, v) ∧ xs[k]? = some v := by
  cases xs with
  | nil => exact absurd rfl h
  | cons x xs =>
    refine ⟨(leastFrom 1 0 x xs).1, (leastFrom 1 0 x xs).2, rfl, ?_⟩
    rcases leastFrom_cases 1 0 x xs with h | ⟨k, hk, hx⟩
    · rw [h]; rfl
    · rw [hk, Nat.add_comm, List.getElem?_cons_succ, hx]

theorem argLeast_lt {xs : List α} (h : xs ≠ []) : argLeast xs < xs.length := by
  obtain ⟨k, v, hk, hv⟩ := exists_least? h
  obtain ⟨hlt, -⟩ := List.getElem?_eq_some_iff.1 hv
  simpa [argLeast, hk] using hlt

theorem greatestFrom_cases (i place : Nat) (best : α) (xs : List α) :
    greatestFrom i place best xs = (place, best) ∨
      ∃ k, (greatestFrom i place best xs).1 = i + k ∧ xs[k]? = some (greatestFrom i place best xs).2 := by
  induction xs generalizing i place best with
  | nil => exact Or.inl rfl
  | cons x xs ih =>
    simp only [greatestFrom]
    split
    · rcases ih (i + 1) i x with h | ⟨k, hk, hx⟩
      · exact Or.inr ⟨0, by rw [h]; rfl, by rw [h]; rfl⟩
      · exact Or.inr ⟨k + 1, by rw [hk]; omega, by simpa using hx⟩
    · rcases ih (i + 1) place best with h | ⟨k, hk, hx⟩
      · exact Or.inl h
      · exact Or.inr ⟨k + 1, by rw [hk]; omega, by simpa using hx⟩

/-- A list that is not empty has a greatest place, and the value is the one in that place. -/
theorem exists_greatest? {xs : List α} (h : xs ≠ []) :
    ∃ k v, greatest? xs = some (k, v) ∧ xs[k]? = some v := by
  cases xs with
  | nil => exact absurd rfl h
  | cons x xs =>
    refine ⟨(greatestFrom 1 0 x xs).1, (greatestFrom 1 0 x xs).2, rfl, ?_⟩
    rcases greatestFrom_cases 1 0 x xs with h | ⟨k, hk, hx⟩
    · rw [h]; rfl
    · rw [hk, Nat.add_comm, List.getElem?_cons_succ, hx]

/-- A scan of copies of a value that does not take the place of the best one keeps that one. -/
theorem leastFrom_replicate {x best : α} (h : isLess x best = false) (i place n : Nat) :
    leastFrom i place best (List.replicate n x) = (place, best) := by
  induction n generalizing i with
  | zero => rfl
  | succ n ih => simpa [List.replicate_succ, leastFrom, h] using ih (i + 1)

theorem argLeast_replicate {x : α} (hx : ¬ x < x) (n : Nat) : argLeast (List.replicate n x) = 0 := by
  cases n with
  | zero => rfl
  | succ n =>
    have hself : isLess x x = false := by simp [isLess, spoils, hx]
    simp [argLeast, List.replicate_succ, least?, leastFrom_replicate hself]

end Scalar

/-! ## Rational scalars -/

theorem isLess_rat (x y : Rat) : isLess x y = decide (x < y) := by
  simp [isLess, spoils, Scalar.isNaN]

theorem isMore_rat (x y : Rat) : isMore x y = decide (y < x) := by
  simp [isMore, spoils, Scalar.isNaN]

theorem leastFrom_le (i place : Nat) (best : Rat) (xs : List Rat) :
    (leastFrom i place best xs).2 ≤ best ∧ ∀ x ∈ xs, (leastFrom i place best xs).2 ≤ x := by
  induction xs generalizing i place best with
  | nil => exact ⟨le_refl _, by simp⟩
  | cons x xs ih =>
    simp only [leastFrom, isLess_rat, decide_eq_true_eq, List.mem_cons, forall_eq_or_imp]
    split
    · rename_i hlt
      obtain ⟨h1, h2⟩ := ih (i + 1) i x
      exact ⟨h1.trans hlt.le, h1, h2⟩
    · rename_i hge
      obtain ⟨h1, h2⟩ := ih (i + 1) place best
      exact ⟨h1, h1.trans (not_lt.1 hge), h2⟩

/-- The least value of a list is a lower bound of it. -/
theorem least?_le {xs : List Rat} {k : Nat} {v : Rat} (h : least? xs = some (k, v)) : ∀ x ∈ xs, v ≤ x := by
  cases xs with
  | nil => cases h
  | cons y xs =>
    have hv : (leastFrom 1 0 y xs).2 = v := by simpa [least?] using congrArg (Option.map Prod.snd) h
    obtain ⟨h1, h2⟩ := leastFrom_le 1 0 y xs
    rw [hv] at h1 h2
    simpa using ⟨h1, h2⟩

theorem greatestFrom_ge (i place : Nat) (best : Rat) (xs : List Rat) :
    best ≤ (greatestFrom i place best xs).2 ∧ ∀ x ∈ xs, x ≤ (greatestFrom i place best xs).2 := by
  induction xs generalizing i place best with
  | nil => exact ⟨le_refl _, by simp⟩
  | cons x xs ih =>
    simp only [greatestFrom, isMore_rat, decide_eq_true_eq, List.mem_cons, forall_eq_or_imp]
    split
    · rename_i hlt
      obtain ⟨h1, h2⟩ := ih (i + 1) i x
      exact ⟨hlt.le.trans h1, h1, h2⟩
    · rename_i hge
      obtain ⟨h1, h2⟩ := ih (i + 1) place best
      exact ⟨h1, (not_lt.1 hge).trans h1, h2⟩

/-- The greatest value of a list is an upper bound of it. -/
theorem le_greatest? {xs : List Rat} {k : Nat} {v : Rat} (h : greatest? xs = some (k, v)) : ∀ x ∈ xs, x ≤ v := by
  cases xs with
  | nil => cases h
  | cons y xs =>
    have hv : (greatestFrom 1 0 y xs).2 = v := by simpa [greatest?] using congrArg (Option.map Prod.snd) h
    obtain ⟨h1, h2⟩ := greatestFrom_ge 1 0 y xs
    rw [hv] at h1 h2
    simpa using ⟨h1, h2⟩

theorem ascends_rat (x y : Rat) : ascends x y = decide (x ≤ y) := by
  simp [ascends, Scalar.isNaN]

/-- Sorting by a value puts lesser values first. -/
theorem pairwise_mergeSort_ascends {β : Type} (value : β → Rat) (xs : List β) :
    (xs.mergeSort fun a b => ascends (value a) (value b)).Pairwise fun a b => value a ≤ value b := by
  have hsorted : (xs.mergeSort fun a b => ascends (value a) (value b)).Pairwise
      fun a b => ascends (value a) (value b) := by
    refine List.pairwise_mergeSort (fun a b c hab hbc => ?_) (fun a b => ?_) xs
    · simp only [ascends_rat, decide_eq_true_eq] at hab hbc ⊢
      exact hab.trans hbc
    · simp only [ascends_rat, Bool.or_eq_true, decide_eq_true_eq]
      exact le_total _ _
  exact hsorted.imp fun h => by simpa only [ascends_rat, decide_eq_true_eq] using h

/-- Where many values are below a bound, the first ones in ascending order are. -/
theorem lt_of_mem_take {β : Type} {value : β → Rat} {xs : List β} (h : xs.Pairwise fun a b => value a ≤ value b) {v : Rat}
    {n : Nat} (hn : n ≤ xs.countP fun a => value a < v) : ∀ a ∈ xs.take n, value a < v := by
  induction xs generalizing n with
  | nil => simp
  | cons x xs ih =>
    obtain ⟨hfirst, hrest⟩ := List.pairwise_cons.1 h
    cases n with
    | zero => simp
    | succ n =>
      have hx : value x < v := by
        obtain ⟨y, hy, hlt⟩ := List.countP_pos_iff.1 (Nat.lt_of_lt_of_le n.succ_pos hn)
        rcases List.mem_cons.1 hy with rfl | hy
        · simpa using hlt
        · exact (hfirst y hy).trans_lt (by simpa using hlt)
      rw [List.countP_cons_of_pos (by simpa using hx)] at hn
      rw [List.take_succ_cons, List.forall_mem_cons]
      exact ⟨hx, ih hrest (by omega)⟩

/-- Where few values are up to a bound, they are the first ones in ascending order. -/
theorem mem_take_of_le {β : Type} {value : β → Rat} {xs : List β} (h : xs.Pairwise fun a b => value a ≤ value b) {v : Rat}
    {n : Nat} (hn : (xs.countP fun a => value a ≤ v) ≤ n) : ∀ a ∈ xs, value a ≤ v → a ∈ xs.take n := by
  induction xs generalizing n with
  | nil => simp
  | cons x xs ih =>
    obtain ⟨hfirst, hrest⟩ := List.pairwise_cons.1 h
    intro a ha hle
    have hx : value x ≤ v := by
      rcases List.mem_cons.1 ha with rfl | ha
      · exact hle
      · exact (hfirst a ha).trans hle
    rw [List.countP_cons_of_pos (by simpa using hx)] at hn
    obtain ⟨n, rfl⟩ := Nat.exists_eq_add_of_le' (show 1 ≤ n by omega)
    rw [List.take_succ_cons]
    rcases List.mem_cons.1 ha with rfl | ha
    · exact List.mem_cons_self
    · exact List.mem_cons_of_mem x (ih hrest (by omega) a ha hle)

/-- The first in ascending order is a least value, with a place where it stands. -/
theorem exists_ascending_cons (xs : List Rat) (h : xs ≠ []) :
    ∃ v k rest, ascending xs = (v, k) :: rest ∧ xs[k]? = some v ∧ ∀ x ∈ xs, v ≤ x := by
  have hmem : ∀ a, a ∈ ascending xs ↔ a ∈ xs.zipIdx := fun a => List.mem_mergeSort
  have hsorted : (ascending xs).Pairwise fun a b => a.1 ≤ b.1 := pairwise_mergeSort_ascends Prod.fst xs.zipIdx
  cases horder : ascending xs with
  | nil =>
    obtain ⟨x, xs, rfl⟩ := List.exists_cons_of_ne_nil h
    have hfirst := (hmem (x, 0)).2 (by simp)
    rw [horder] at hfirst
    cases hfirst
  | cons a rest =>
    rw [horder] at hmem hsorted
    refine ⟨a.1, a.2, rest, rfl, List.mk_mem_zipIdx_iff_getElem?.1 ((hmem a).1 List.mem_cons_self), fun x hx => ?_⟩
    obtain ⟨k, hk⟩ := List.mem_iff_getElem?.1 hx
    rcases List.mem_cons.1 ((hmem (x, k)).2 (List.mk_mem_zipIdx_iff_getElem?.2 hk)) with heq | hrest
    · exact (congrArg Prod.fst heq).ge
    · exact (List.pairwise_cons.1 hsorted).1 _ hrest

end Tessera.Pick
