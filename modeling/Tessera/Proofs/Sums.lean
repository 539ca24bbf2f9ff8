import Mathlib
import Tessera.Scalar
/-!
# Sums from the left and pairwise sums

A row or a column that stands alone is added pairwise, a column among others from the left. Fewer than eight numbers are
added in the same order by both, in every arithmetic (`Scalar.pairwiseSum_of_length_lt`). In exact arithmetic the order does
not matter: the eight lanes of a list have all its numbers, each once (`Scalar.sum_lanes`), and halving splits a sum. In
floating point the two sums of eight numbers can differ, and with them what is least.
-/

namespace Tessera.Scalar

variable {α : Type} [Scalar α]

theorem pairwiseSum_of_length_lt {xs : List α} (h : xs.length < 8) : pairwiseSum xs = sum xs := by
  rw [pairwiseSum, if_pos h]

/-! ## Exact arithmetic -/

theorem foldl_add_rat (x : Rat) (xs : List Rat) : xs.foldl (· + ·) x = x + xs.sum := by
  induction xs generalizing x with
  | nil => rw [List.foldl_nil, List.sum_nil, add_zero]
  | cons y ys ih => rw [List.foldl_cons, ih, List.sum_cons, add_assoc]

theorem sum_rat (xs : List Rat) : sum xs = xs.sum := by
  rw [sum, foldl_add_rat]
  exact zero_add _

/-- Every number of a list is in one of the eight lanes, wherever the count begins. -/
theorem sum_lanes_from (xs : List Rat) (n : Nat) :
    ∑ j ∈ Finset.range 8, (((xs.zipIdx n).filter fun x => x.2 % 8 == j).map Prod.fst).sum = xs.sum := by
  induction xs generalizing n with
  | nil => simp
  | cons x xs ih =>
    have hlane : ∀ j, ((((x :: xs).zipIdx n).filter fun x => x.2 % 8 == j).map Prod.fst).sum =
        (if n % 8 = j then x else 0) + (((xs.zipIdx (n + 1)).filter fun x => x.2 % 8 == j).map Prod.fst).sum := by
      intro j
      rw [List.zipIdx_cons, List.filter_cons]
      by_cases h : n % 8 = j <;> simp [h]
    have hmine : n % 8 ∈ Finset.range 8 := Finset.mem_range.2 (Nat.mod_lt n (by decide))
    rw [Finset.sum_congr rfl fun j _ => hlane j, Finset.sum_add_distrib, ih, Finset.sum_ite_eq, if_pos hmine, List.sum_cons]

theorem sum_lanes (xs : List Rat) : ∑ j ∈ Finset.range 8, lane xs j = xs.sum := by
  rw [← sum_lanes_from xs 0]
  exact Finset.sum_congr rfl fun j _ => sum_rat _

theorem sumLanes_rat (xs : List Rat) : sumLanes xs = xs.sum := by
  have hlanes := sum_lanes (xs.take (xs.length / 8 * 8))
  rw [sumLanes, foldl_add_rat]
  conv_rhs => rw [← List.sum_take_add_sum_drop xs (xs.length / 8 * 8), ← hlanes]
  simp only [Finset.sum_range_succ, Finset.sum_range_zero]
  ring

theorem pairwiseSum_rat (xs : List Rat) : pairwiseSum xs = xs.sum := by
  fun_induction pairwiseSum xs with
  | case1 xs hfew => exact sum_rat xs
  | case2 xs hmany hrow => exact sumLanes_rat xs
  | case3 xs hmany hlong half ihtake ihdrop => rw [ihtake, ihdrop, List.sum_take_add_sum_drop]

theorem pairwiseSum_eq_sum (xs : List Rat) : pairwiseSum xs = sum xs := by
  rw [pairwiseSum_rat, sum_rat]

end Tessera.Scalar
