import Tessera.Number
import Tessera.Scalar
import Tessera.Span
/-!
# Learning-rate schedule

A rate that moves on a straight line from its start to its end over a number of samples, and stays at the end
(`LinearSchedule`). Learning takes the rates of its samples as a list; a long stretch of samples is cut into blocks,
and each block has its own.

A schedule may also be given by values of any kind. Then every rate is worked out by the arithmetic of numbers, and
whatever is no number is refused where it is first needed.
-/

namespace Tessera

/-- A straight line of rates (`LinearSchedule`). -/
structure Schedule (α : Type) where
  start : α
  stop : α
  total : Int

/-- The rates of a block of samples, the samples done with it, and all samples of the phase. -/
structure Stretch (α : Type) where
  rates : List α
  done : Number
  total : Number

namespace Schedule

variable {α : Type} [Scalar α]

/-- The rate of a step. Steps before the first take the start, steps behind the last the end. -/
def rate (s : Schedule α) (step : Int) : α :=
  if s.total ≤ 0 then s.stop
  else s.start + (s.stop - s.start) * Scalar.clampUnit (Scalar.ofInt step / Scalar.ofInt s.total)

/-- The rates of `count` steps from a step on. -/
def rates (s : Schedule α) (offset : Int) (count : Nat) : List α :=
  (List.range count).map fun (k : Nat) => s.rate (offset + (k : Int))

def constant (rate : α) (total : Int) : Schedule α := ⟨rate, rate, total⟩

/-- The rates of blocks of `count` samples each. -/
def blockRates (s : Schedule α) (blocks count : Nat) : List (List α) :=
  (List.range blocks).map fun b => s.rates ((b * count : Nat) : Int) count

/-- The rates of `total` samples from a step on, in blocks of at most `block`. -/
def stretches (s : Schedule α) (offset : Int) (total block : Nat) : List (Stretch α) :=
  (Span.starting block 0 total).map fun (a, b) =>
    ⟨s.rates (offset + (a : Int)) (b - a), .whole b, .whole total⟩

end Schedule

/-! ## Counting blocks -/

/-- The least integer that is not below a scalar. -/
def Scalar.ceil {α : Type} [Scalar α] (x : α) : Int :=
  let f := Scalar.floor x
  if f < x then Scalar.toInt f + 1 else Scalar.toInt f

/-- The number of blocks that a number of samples fills; a block of less than one sample counts as one (`count_blocks`). -/
def countBlocks (α : Type) [Scalar α] (total block : Int) : Int :=
  Scalar.ceil (Scalar.ofInt total / Scalar.ofInt (max 1 block) : α)

/-- The number of blocks by values of any kind. -/
def countGivenBlocks (total block : Value) : Result Int := do
  let size ← (Number.max (.whole 1) (← Number.ofValue block)).toFloat
  let quotient := (← (← Number.ofValue total).toFloat) / size
  let _ ← Number.truncateReal quotient
  pure (Scalar.ceil quotient)

/-! ## Given schedules -/

/-- A schedule of values that have not been checked. -/
structure ScheduleDraft where
  start : Value
  stop : Value
  total : Value

namespace ScheduleDraft

/-- The part of the way that a step has come. -/
def part (step : Value) (total : Number) : Result Float := do
  let size ← total.toFloat
  pure (Scalar.clampUnit (← (← Number.ofValue step).div (.real size)))

/-- The rate of a step. A schedule over no samples has its end as it is given. -/
def rate (s : ScheduleDraft) (step : Value) : Result Value := do
  let total ← Number.ofValue s.total
  if total.le (.whole 0) then pure s.stop
  else
    let x ← part step total
    let start ← Number.ofValue s.start
    let way ← (← (← Number.ofValue s.stop).sub start).mul (.real x)
    pure (← start.add way).toValue

/-- The schedule with one rate, or with two, over as many samples as there are. -/
def ofRates (start stop count : Value) : ScheduleDraft :=
  match stop with
  | .null => ⟨start, start, count⟩
  | v => ⟨start, v, count⟩

/-- Where a block begins, whose size may be of any kind. -/
def blockStart (block : Nat) : Value → Result Value
  | .text s => pure (.text (String.join (List.replicate block s)))
  | v => do pure (← Number.mul (.whole block) (← Number.ofValue v)).toValue

/-- The schedule of a value with three parts. -/
def ofValue (v : Value) : Result ScheduleDraft := do
  match ← v.parts with
  | [start, stop, total] => pure ⟨start, stop, total⟩
  | _ => refuse .kind

/-- More blocks than there can be: what rounding leaves may need one or two besides. Blocks of no samples never end, and
only one is run. -/
def mostBlocks (total block : Value) : Nat :=
  match total.real, block.real with
  | .ok t, .ok b => if b ≤ 0.0 then 1 else (Scalar.ceil (t / b)).toNat + 4
  | _, _ => 1

end ScheduleDraft

end Tessera
