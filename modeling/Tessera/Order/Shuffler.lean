import Tessera.Order.Source
import Tessera.Tensor
/-!
# Shufflers

A shuffler hands out the numbers `0 … size - 1` in random order, again and again. Each pass has an order of its
own, which comes from a source that is kept outside, so that several shufflers can draw from one.
-/

namespace Tessera

/-- A walk through random orders (`SampleShuffler`). -/
structure Shuffler where
  size : Nat
  order : Array Nat
  cursor : Nat
  passes : Nat
deriving DecidableEq, Inhabited

namespace Shuffler

variable {γ : Type} [OrderSource γ]

/-- A shuffler at the start of its first pass. -/
def start (size : Nat) (g : γ) : Shuffler × γ :=
  let (order, g) := OrderSource.order size g
  (⟨size, order, 0, 0⟩, g)

/-- Starts a new pass (`SampleShuffler.restart`). -/
def restart (s : Shuffler) (g : γ) : Shuffler × γ :=
  let (order, g) := OrderSource.order s.size g
  ({ s with order, cursor := 0, passes := s.passes + 1 }, g)

/-- Starts a new pass when the current one is over. -/
def ready (s : Shuffler) (g : γ) : Shuffler × γ := if s.size ≤ s.cursor then s.restart g else (s, g)

def remaining (s : Shuffler) : Nat := s.size - s.cursor

/-- The next number (`SampleShuffler.next`). -/
def next (s : Shuffler) (g : γ) : Nat × Shuffler × γ :=
  let (s, g) := s.ready g
  (s.order.getD s.cursor 0, { s with cursor := s.cursor + 1 }, g)

def draws (s : Shuffler) (g : γ) : Nat → List Nat × Shuffler × γ
  | 0 => ([], s, g)
  | count + 1 =>
    let (n, s, g) := s.next g
    let (rest, s, g) := draws s g count
    (n :: rest, s, g)

/-- The next `count` numbers, a stretch of a pass at a time (`SampleShuffler.take`). -/
def take (s : Shuffler) (g : γ) (count : Nat) : List Nat × Shuffler × γ :=
  if count = 0 then ([], s, g)
  else
    let (s, g) := s.ready g
    let stretch := min count s.remaining
    if _h : 0 < stretch then
      let here := (List.range stretch).map fun k => s.order.getD (s.cursor + k) 0
      let (rest, s, g) := take { s with cursor := s.cursor + stretch } g (count - stretch)
      (here ++ rest, s, g)
    else ([], s, g)
termination_by count
decreasing_by omega

/-- A shuffler of a given size, which has to be positive. -/
def checked (size : Int) (g : Result γ) : Result (Shuffler × γ) :=
  if size ≤ 0 then .error .noSamples else g.map (start size.toNat)

/-- A shuffler of a size of any kind. A positive part of one is no sample. -/
def ofValue (size : Value) (g : Result γ) : Result (Shuffler × γ) := do
  let n ← Number.ofValue size
  if n.le (.whole 0) then .error .noSamples
  else
    let size ← n.truncate
    g.map (start size.toNat)

def nextChecked (s : Shuffler) (g : γ) : Result (Nat × Shuffler × γ) :=
  if s.size = 0 then refuse .position else pure (s.next g)

/-- The next numbers one at a time, as many as an integer says. -/
def drawsGiven (s : Shuffler) (g : γ) (count : Value) : Result (List Nat × Shuffler × γ) := do
  let n ← match count with
    | .int n => pure n.toNat
    | .bool b => pure (if b then 1 else 0)
    | _ => refuse .kind
  if 0 < n ∧ s.size = 0 then refuse .position else pure (s.draws g n)

/-- The next numbers, as many as a value stands for. -/
def takeGiven (s : Shuffler) (g : γ) (count : Value) : Result (List Nat × Shuffler × γ) := do
  let n := (← count.integer).toNat
  Tensor.checkCount n
  pure (s.take g n)

end Shuffler

end Tessera
