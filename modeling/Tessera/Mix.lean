import Tessera.Number
import Tessera.Pick
import Tessera.Rgb
/-!
# Two-colour mixes

Ordered dithering shows a colour as a mix of two palette colours in one of a few proportions. The cost of a mix is the
squared distance from the mixed colour, and a penalty for the contrast of the two colours, which a greater weight
lowers. Only the four nearest colours are paired (`dither_mix_search`). A mix at level zero is the nearest colour
alone.
-/

namespace Tessera

/-- How mixes are measured: the number of levels, and the weight that lowers the penalty (`DitherCost`). -/
structure MixRule (α : Type) where
  levels : Nat
  weight : α

/-- A mix: the second colour is shown where the rank is below the level, the first elsewhere (`MixChoice`). -/
structure Mix (α : Type) where
  cost : α
  first : Nat
  second : Nat
  level : Nat

namespace Mix

variable {α : Type} [Scalar α]

/-- How many of the nearest colours are paired (`DITHER_CANDIDATES`). -/
def candidates : Nat := 4

/-- All pairs of a list, in order of the first and then of the second. -/
def pairs {β : Type} : List β → List (β × β)
  | [] => []
  | x :: xs => xs.map (fun y => (x, y)) ++ pairs xs

@[inline] def share (levels k : Nat) : α := Scalar.ofNat k / Scalar.ofNat levels

@[inline] def blend (t : α) (c d : Rgb α) : Rgb α := c.zipWith (fun x s => x + t * s) (d.sub c)

/-- The cost of the mix of two colours at a level. -/
@[inline] def trial (rule : MixRule α) (point c d : Rgb α) (k : Nat) : α :=
  let t : α := share rule.levels k
  let penalty := Scalar.ratio 1 4 * (Scalar.ofNat 1 - rule.weight)
  point.sqDist (blend t c d) + penalty * t * (Scalar.ofNat 1 - t) * d.sqDist c

/-- The better of two mixes; the first of equals. -/
@[inline] def better (m n : Mix α) : Mix α := if n.cost < m.cost then n else m

/-- The mixes of two of the colours at the levels between the two. -/
@[specialize] def trials (rule : MixRule α) (point : Rgb α) (c d : Rgb α × Nat) : List (Mix α) :=
  (List.range' 1 (rule.levels - 1)).map fun k => ⟨trial rule point c.1 d.1 k, c.2, d.2, k⟩

/-- The nearest colours of a list with their positions, nearest first. -/
@[specialize] def nearestColors (point : Rgb α) (colors : List (Rgb α)) : List (α × Rgb α × Nat) :=
  ((colors.zipIdx.map fun c => (point.sqDist c.1, c)).mergeSort fun a b => Pick.ascends a.1 b.1).take candidates

/-- The best mix of a list of colours for a point; none of no colours. -/
@[specialize] def search (rule : MixRule α) (point : Rgb α) (colors : List (Rgb α)) : Option (Mix α) :=
  match nearestColors point colors with
  | [] => none
  | (d, c) :: rest =>
    some <| ((pairs (((d, c) :: rest).map Prod.snd)).flatMap fun (a, b) => trials rule point a b).foldl better
      ⟨d, c.2, c.2, 0⟩

def slotAt (m : Mix α) (rank : Nat) : Nat := if rank < m.level then m.second else m.first

/-! ## Many points at once -/

/-- A point on the way to its best mix, with the nearest colours and the best mix so far. -/
structure Row (α : Type) where
  point : Rgb α
  near : List (Rgb α × Nat)
  best : Option (Mix α)

namespace Row

/-- A point to start with: its best mix is the nearest colour alone. -/
@[specialize] def start (colors : List (Rgb α)) (point : Rgb α) : Row α :=
  let near := nearestColors point colors
  ⟨point, near.map Prod.snd, near.head?.map fun (d, c) => ⟨d, c.2, c.2, 0⟩⟩

/-- The mix at a level of two of the nearest colours, given by their places. -/
@[specialize] def attempt (rule : MixRule α) (step : (Nat × Nat) × Nat) (r : Row α) : Option (Mix α) :=
  match r.near[step.1.1]?, r.near[step.1.2]? with
  | some c, some d => some ⟨trial rule r.point c.1 d.1 step.2, c.2, d.2, step.2⟩
  | _, _ => none

/-- Whether a mix costs less than the best one so far. -/
@[inline] def gains (r : Row α) (n : Option (Mix α)) : Bool :=
  match r.best, n with
  | some m, some n => decide (n.cost < m.cost)
  | _, _ => false

@[inline] def take (r : Row α) (n : Option (Mix α)) : Row α := if r.gains n then { r with best := n } else r

end Row

/-- The places of two of the nearest colours and the levels between them, in the order in which they are tried. -/
def steps (levels count : Nat) : List ((Nat × Nat) × Nat) :=
  (pairs (List.range (min candidates count))).flatMap fun places => (List.range' 1 (levels - 1)).map fun k => (places, k)

/-- Tries one step for all points. Where no point gains by it, nothing is written. -/
@[specialize] def round (rule : MixRule α) (rows : List (Row α)) (step : (Nat × Nat) × Nat) : List (Row α) :=
  let tries := rows.map (Row.attempt rule step)
  if (rows.zip tries).any fun x => x.1.gains x.2 then rows.zipWith Row.take tries else rows

/-- The best mixes of a list of colours for several points, step by step for all of them at once (`dither_mix_search`). -/
@[specialize] def searchEach (rule : MixRule α) (points : List (Rgb α)) (colors : List (Rgb α)) : List (Option (Mix α)) :=
  ((steps rule.levels colors.length).foldl (round rule) (points.map (Row.start colors))).map Row.best

end Mix

/-! ## Given rules -/

/-- A rule for mixes of values that have not been checked. -/
structure MixDraft where
  levels : Value
  weight : Value

namespace MixDraft

/-- A number of levels, which has to be an integer. -/
def levelsOf : Value → Result Nat
  | .int n => pure n.toNat
  | .bool b => pure (if b then 1 else 0)
  | _ => refuse .kind

/-- The rule for mixes of so many colours. There has to be one, and only two or more have levels between them. -/
def rule (d : MixDraft) (colors : Nat) : Result (MixRule Float) := do
  if colors = 0 then refuse .position
  else
    let weight ← d.weight.real
    let levels ← if colors < 2 then pure 0 else levelsOf d.levels
    pure ⟨levels, weight⟩

/-- The best mixes for several points by a rule that may be missing. There have to be colours. -/
def searchAll (d? : Option MixDraft) (points colors : List (Rgb Float)) : Result (List (Mix Float)) := do
  match d? with
  | none => if colors.isEmpty then refuse .position else refuse .member
  | some d =>
    let rule ← d.rule colors.length
    pure ((Mix.searchEach rule points colors).filterMap id)

end MixDraft

end Tessera
