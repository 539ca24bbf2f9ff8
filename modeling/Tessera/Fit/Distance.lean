import Tessera.Fit.Error
import Tessera.Tensor
/-!
# Distances of given arrays

Points and colours may be handed in as arrays. Points are three numbers each. Colours have any shape whose
last dimension is a colour, or a single number that stands for all its channels.
-/

namespace Tessera.Fit

/-- The squared sums along the last dimension of a difference. -/
def squares (t : Tensor Float) : Tensor Float := t.lanes.map fun lane => Tensor.sum (lane.map fun x => x * x)

/-- The squared distances of every point to every colour (`squared_distances`). -/
def distances (points colors : Value) : Result (Tensor Float) := do
  let points ← Tensor.colors points
  let colors ← Tensor.reals colors
  let shape := points.length :: List.replicate (colors.rank - 1) 1 ++ [3]
  match Tensor.zipWith? (fun x y : Float => x - y) ⟨shape, (points.flatMap Rgb.toList).toArray⟩ colors with
  | some t => pure (squares t)
  | none => refuse .shape

/-- The colour that is nearest to a point, with its squared distance (`nearest_color`). -/
def nearestRow (point colors : Value) : Result (Nat × Float) := do
  let colors ← Tensor.colors colors
  let point ← Tensor.reals point
  let rows : Tensor Float := ⟨[colors.length, 3], (colors.flatMap Rgb.toList).toArray⟩
  match Tensor.zipWith? (fun x y : Float => x - y) rows point with
  | some t => if t.rank = 2 then (Pick.least? (squares t).data.toList).elim (refuse .choice) pure else refuse .shape
  | none => refuse .shape

end Tessera.Fit
