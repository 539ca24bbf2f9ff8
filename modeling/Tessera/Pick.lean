import Tessera.Scalar
/-!
# First least and first greatest

Every choice of the library takes the first of equals. `least?` and `greatest?` scan a list once and replace
the current choice only by a strictly better one. What is no number wins both: one such value spoils a choice, as it
spoils a sum. In an order such values stand last.
-/

namespace Tessera

namespace Pick

variable {α : Type} [Scalar α]

/-- Whether a value is no number and another one is. -/
@[inline] def spoils (x y : α) : Bool := Scalar.isNaN x && !Scalar.isNaN y

/-- Whether a value takes the place of the least so far. -/
@[inline] def isLess (x y : α) : Bool := decide (x < y) || spoils x y

/-- Whether a value takes the place of the greatest so far. -/
@[inline] def isMore (x y : α) : Bool := decide (y < x) || spoils x y

/-- Whether a value may stand before another one in ascending order. -/
@[inline] def ascends (x y : α) : Bool := decide (x ≤ y) || Scalar.isNaN y

/-- Whether a value may stand before another one in descending order. -/
@[inline] def descends (x y : α) : Bool := decide (y ≤ x) || Scalar.isNaN y

/-- The lesser of two values, the first of equals. -/
@[inline] def lesser (x y : α) : α := if isLess y x then y else x

/-- Scans on from position `i` with the best position and value so far. -/
@[specialize] def leastFrom (i : Nat) (place : Nat) (best : α) : List α → Nat × α
  | [] => (place, best)
  | x :: xs => if isLess x best then leastFrom (i + 1) i x xs else leastFrom (i + 1) place best xs

/-- The first position of the least element, with that element. -/
@[specialize] def least? : List α → Option (Nat × α)
  | [] => none
  | x :: xs => some (leastFrom 1 0 x xs)

/-- Scans on from position `i` with the best position and value so far. -/
@[specialize] def greatestFrom (i : Nat) (place : Nat) (best : α) : List α → Nat × α
  | [] => (place, best)
  | x :: xs => if isMore x best then greatestFrom (i + 1) i x xs else greatestFrom (i + 1) place best xs

/-- The first position of the greatest element, with that element. -/
@[specialize] def greatest? : List α → Option (Nat × α)
  | [] => none
  | x :: xs => some (greatestFrom 1 0 x xs)

/-- The first position of the least element; zero for an empty list. -/
@[inline] def argLeast (xs : List α) : Nat := (least? xs).elim 0 Prod.fst

/-- The first position of the greatest element; zero for an empty list. -/
@[inline] def argGreatest (xs : List α) : Nat := (greatest? xs).elim 0 Prod.fst

/-- Positions in the order of their values, equal values in the order of their positions. -/
@[specialize] def ascending (xs : List α) : List (α × Nat) :=
  xs.zipIdx.mergeSort fun a b => ascends a.1 b.1

/-- Positions from the greatest value down, equal values in the order of their positions. -/
@[specialize] def descending (xs : List α) : List (α × Nat) :=
  xs.zipIdx.mergeSort fun a b => descends a.1 b.1

end Pick

end Tessera
