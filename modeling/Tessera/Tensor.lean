import Tessera.Number
import Tessera.Rgb
import Tessera.Table
/-!
# Arrays of any shape

A tensor is a shape and its cells in order, the last dimension running fastest. Two shapes are joined from the last
dimension on: where they differ one of them has to be one there, or to have no such dimension, and its cells are
repeated. Functions of two tensors work cell by cell on their joint shape.

Shapes are joined backwards, so `joint?` and `place` take them with the last dimension first.
-/

namespace Tessera

/-- A shape and the cells in order. -/
structure Tensor (β : Type) where
  shape : List Nat
  data : Array β
deriving Inhabited

namespace Tensor

variable {β γ δ : Type}

def cells (shape : List Nat) : Nat := shape.foldr (· * ·) 1

def rank (t : Tensor β) : Nat := t.shape.length

/-- A list cut into `count` pieces of a width. -/
def pieces (width : Nat) : Nat → List β → List (List β)
  | 0, _ => []
  | count + 1, xs => xs.take width :: pieces width count (xs.drop width)

/-- Refuses more cells than there is room for, or than can be counted at all. -/
def checkCount (n : Nat) : Result Unit :=
  if n < 0x200000000 then pure () else if n < 0x1000000000000000 then refuse .memory else refuse .shape

/-! ## Nested lists -/

def ofTable (t : Table β) : Result (Tensor β) := do
  let shape ← t.shape
  pure ⟨shape, t.flatten.toArray⟩

def tableOf : List Nat → List β → Table β
  | [], xs => xs.head?.elim (.row []) .cell
  | n :: shape, xs => .row ((pieces (cells shape) n xs).map (tableOf shape))

def toTable (t : Tensor β) : Table β := tableOf t.shape t.data.toList

/-- The tensor of a value that is made of nested lists, with a reading of its cells. -/
def ofValue (read : Value → Result β) (v : Value) : Result (Tensor β) := do
  let t ← ofTable (Table.ofValue v)
  let data ← t.data.mapM read
  pure ⟨t.shape, data⟩

def reals (v : Value) : Result (Tensor Float) := ofValue Value.cell v

/-- The colours of a value that has three numbers for each, however they are nested. -/
def colors (v : Value) : Result (List (Rgb Float)) := do
  let t ← reals v
  if t.data.size % 3 = 0 then pure (Rgb.ofChannels t.data.toList) else refuse .shape

/-! ## Joining shapes -/

def jointLength? (a b : Nat) : Option Nat :=
  if a = b then some a else if a = 1 then some b else if b = 1 then some a else none

/-- The joint shape of two shapes, all with the last dimension first. -/
def joint? : List Nat → List Nat → Option (List Nat)
  | [], s => some s
  | s, [] => some s
  | a :: s, b :: t =>
    match jointLength? a b, joint? s t with
    | some n, some rest => some (n :: rest)
    | _, _ => none

/-- The place of a cell of the joint shape among the cells of one of the two, both with the last dimension first. -/
def place (stride : Nat) : List Nat → List Nat → Nat → Nat
  | n :: full, m :: own, i => (if m = 1 then 0 else i % n * stride) + place (stride * m) full own (i / n)
  | _, _, _ => 0

/-- The cells of a tensor repeated to a shape that it can be joined to. -/
def spread (t : Tensor β) (shape : List Nat) : List β :=
  (List.range (cells shape)).filterMap fun i => t.data[place 1 shape.reverse t.shape.reverse i]?

/-- Combines two tensors cell by cell, when their shapes can be joined. -/
def zipWith? (f : β → γ → δ) (a : Tensor β) (b : Tensor γ) : Option (Tensor δ) :=
  (joint? a.shape.reverse b.shape.reverse).map fun back =>
    let shape := back.reverse
    ⟨shape, ((a.spread shape).zipWith f (b.spread shape)).toArray⟩

/-- A tensor repeated to a shape, when its own shape fits it. -/
def spreadTo? (t : Tensor β) (shape : List Nat) : Option (Tensor β) :=
  if joint? t.shape.reverse shape.reverse = some shape.reverse then some ⟨shape, (t.spread shape).toArray⟩ else none

/-- A tensor written to a place of some shape. Dimensions of one in front are dropped. -/
def writtenTo? (t : Tensor β) (shape : List Nat) : Option (Tensor β) :=
  let extra := t.rank - shape.length
  let trimmed : Tensor β := if (t.shape.take extra).all (· == 1) then ⟨t.shape.drop extra, t.data⟩ else t
  trimmed.spreadTo? shape

def map (f : β → γ) (t : Tensor β) : Tensor γ := ⟨t.shape, t.data.map f⟩

/-- The cells along the last dimension, for each place of the others. -/
def lanes (t : Tensor β) : Tensor (List β) :=
  let outer := t.shape.dropLast
  ⟨outer, (pieces (t.shape.getLast?.getD 1) (cells outer) t.data.toList).toArray⟩

def sum (xs : List Float) : Float := xs.foldl (· + ·) 0.0

end Tensor

end Tessera
