import Tessera.Number
import Tessera.Pick
import Tessera.Rgb
/-!
# Farthest-point seeds

The first seed is the heaviest point. Every further seed is the point whose nearest seed so far is farthest away.
-/

namespace Tessera.Cluster

variable {α : Type} [Scalar α]

/-- The squared distances of all points from the point at a position. -/
@[specialize] def distancesFrom (points : List (Rgb α)) (i : Nat) : List α :=
  match points[i]? with
  | some c => points.map fun p => p.sqDist c
  | none => points.map fun _ => Scalar.infinite

/-- Further seeds, given the distance of each point to its nearest seed so far. -/
@[specialize] def seedsFrom (points : List (Rgb α)) : Nat → List α → List Nat
  | 0, _ => []
  | n + 1, nearest =>
    let i := Pick.argGreatest nearest
    i :: seedsFrom points n (nearest.zipWith Pick.lesser (distancesFrom points i))

/-- Positions of `k` seeds, or of as many as there are points; at least one (`farthest_point_seeds`). -/
@[specialize] def seeds (points : List (Rgb α)) (weights : List α) (k : Nat) : List Nat :=
  let i := Pick.argGreatest weights
  i :: seedsFrom points (min k points.length - 1) (distancesFrom points i)

/-! ## Seeds by given numbers -/

/-- The least number of seeds, one or more, that is not below a limit. -/
def seedCount : Number → Nat
  | .whole n => max 1 n.toNat
  | .real x => if x.isNaN then 1 else max 1 (Scalar.toInt x.ceil).toNat

/-- Positions of seeds, as many as a value asks for. The heaviest has to be one of the points. -/
def seedsGiven (points : List (Rgb Float)) (weights : List Float) (k : Value) : Result (List Nat) := do
  if weights.isEmpty then refuse .choice
  else if points.length ≤ Pick.argGreatest weights then refuse .position
  else
    let limit := Number.min (← Number.ofValue k) (.whole points.length)
    pure (seeds points weights (seedCount limit))

end Tessera.Cluster
