import Tessera.Tensor.Kind
/-!
# Choosing from arrays

An array is asked for some of its cells by values of several kinds. An integer names one place along a dimension,
a negative one from the end. A list names several places and brings its own shape; a list of truth values lies over as
many dimensions as it has, and says of each place there whether to keep it. A missing value names no place and adds a
dimension of one. A truth value names none either, and adds a dimension that keeps all or nothing.

Several indices go through the dimensions in order. Where lists are among them they choose together, place by place, in
their joint shape. Dimensions that no index names are kept whole.

Lists and truth values choose a copy. What integers and missing values choose is still part of the array, so a change
of it changes the array.
-/

namespace Tessera

/-- How a value chooses from an array. -/
inductive Index where
  | one (i : Int)
  | many (places : Tensor Int)
  | keep (places : Tensor Bool)
  | whole (kept : Bool)
  | fresh

/-- Cells of an array by their numbers, in a shape of their own. -/
abbrev Places := Tensor Nat

namespace Index

/-- The integer that a cell of a list of places stands for. A word without a sign counts from the end in its upper half. -/
def placeOf : Value → Int
  | .int n => if n < Value.wordLimit then n else n - 2 * Value.wordLimit
  | .bool b => b.toInt
  | _ => 0

/-- How an array of values chooses: by truth values, or by integers. -/
def ofCells (t : Tensor Value) : Result Index :=
  if t.data.isEmpty then pure (many ⟨t.shape, #[]⟩)
  else
    match Kind.ofTensor t with
    | .truth => pure (keep (t.map Value.isTrue))
    | .whole => pure (many (t.map placeOf))
    | .unsigned => pure (many (t.map placeOf))
    | _ => refuse .position

/-- How a value chooses. A word without a sign cannot name a place on its own. -/
def ofValue : Value → Result Index
  | .int n => if Kind.ofInt n = .unsigned then refuse .overflow else pure (one n)
  | .bool b => pure (whole b)
  | .null => pure fresh
  | .list vs => do ofCells (← Tensor.ofValue pure (.list vs))
  | _ => refuse .position

def isCopy : Index → Bool
  | one _ => false
  | fresh => false
  | _ => true

/-- The shape that an index adds when it is a missing value. -/
def added : Index → List Nat
  | fresh => [1]
  | _ => []

def keptCells (t : Tensor Bool) : List Nat := (List.range t.data.size).filter fun i => t.data.getD i false

def ownShape : Index → List Nat
  | many t => t.shape
  | keep t => [(keptCells t).length]
  | whole b => [b.toNat]
  | _ => []

/-- The place that a list names along a dimension. When it chooses nothing in the end, any number will do. -/
def listed (chooses : Bool) (n : Nat) (i : Int) : Result Nat := if chooses then position n i else pure 0

/-- The cells at which the parts that an index chooses begin, and the dimensions that are left behind it. -/
def starts (chooses : Bool) (dims : List Nat) : Index → Result (Places × List Nat)
  | one i =>
    match dims with
    | n :: rest => do pure (⟨[], #[(← position n i) * Tensor.cells rest]⟩, rest)
    | [] => refuse .position
  | many t =>
    match dims with
    | n :: rest => do pure (⟨t.shape, ← t.data.mapM fun i => do pure ((← listed chooses n i) * Tensor.cells rest)⟩, rest)
    | [] => refuse .position
  | keep t =>
    if dims.take t.rank = t.shape then
      let rest := dims.drop t.rank
      let kept := keptCells t
      pure (⟨[kept.length], (kept.map (· * Tensor.cells rest)).toArray⟩, rest)
    else refuse .position
  | whole b => pure (⟨[b.toNat], Array.replicate b.toNat 0⟩, dims)
  | fresh => pure (⟨[], #[0]⟩, dims)

/-- The cells of the parts that begin at some cells. -/
def fillParts (starts : Places) (rest : List Nat) : Places :=
  ⟨starts.shape ++ rest, (starts.data.toList.flatMap fun a => (List.range (Tensor.cells rest)).map (a + ·)).toArray⟩

/-- The cells that an index chooses from an array of some shape. -/
def along (dims : List Nat) (i : Index) : Result Places := do
  let (starts, rest) ← i.starts true dims
  let t := fillParts starts rest
  pure { t with shape := i.added ++ t.shape }

/-- The cells that two indices choose from an array of some shape. -/
def across (dims : List Nat) (i j : Index) : Result Places := do
  let chooses := (Tensor.joint? i.ownShape.reverse j.ownShape.reverse).all fun s => decide (Tensor.cells s ≠ 0)
  let (first, rest) ← i.starts chooses dims
  let (second, rest) ← j.starts chooses rest
  match Tensor.zipWith? (fun a b : Nat => a + b) first second with
  | none => refuse .position
  | some joint =>
    let parts := fillParts joint rest
    pure { parts with shape := i.added ++ joint.shape ++ j.added ++ rest }

end Index

/-- The places that a value chooses along the first dimension of an array, which has `n` of them. -/
def placesAlong (n : Nat) (v : Value) : Result Places := do (← Index.ofValue v).along [n]

/-- The single place that a value names along a dimension of `n`, where several are of no use. -/
def placeAlong (n : Nat) (v : Value) : Result Nat := do
  let t ← placesAlong n v
  match t.shape, t.data[0]? with
  | [], some i => pure i
  | _, _ => refuse .kind

end Tessera
