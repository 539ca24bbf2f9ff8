import Tessera.Palette.Set
import Tessera.Tensor.Index
/-!
# Boards

A board is a palette set as it is handed in: its policy may be a value of any kind, and its colours come in arrays. Where
the policy is not asked, a stranger in its place does no harm. Where it is, the board is refused.
-/

namespace Tessera

/-- Palettes under a policy of any kind. The set of a board whose policy is none counts as unique. `reading` tells the
policies apart that were read at different times. -/
structure Board where
  policy : Value
  set : PaletteSet Float
  reading : Nat := 0

namespace Board

/-- The policy of a set, when a value is one. -/
def policyOf : Value → ColorZero
  | .zero z => z
  | _ => .unique

/-- The palettes, when their policy is known. -/
def known (b : Board) : Result (PaletteSet Float) :=
  match b.policy with
  | .zero _ => pure b.set
  | _ => refuse .member

def withSet (b : Board) (s : PaletteSet Float) : Board := { b with set := s }

def ofSet (s : PaletteSet Float) : Board := ⟨.zero s.zero, s, 0⟩

/-- Whether a value is one and the same however often it is read: a policy, what is missing, a truth value, a small
number, a text without letters or with a single plain one. -/
def isLasting : Value → Bool
  | .null => true
  | .bool _ => true
  | .int n => decide (-5 ≤ n ∧ n ≤ 256)
  | .text s => s.toList.all (fun c => decide (c.toNat < 256)) && decide (s.length ≤ 1)
  | .zero _ => true
  | _ => false

/-- Whether two boards have one and the same policy. -/
def samePolicy (b c : Board) : Bool :=
  b.reading == c.reading || (isLasting b.policy && isLasting c.policy && b.policy.quote == c.policy.quote)

/-- Whether two boards have the same policy, shape and colours (`same_as`). -/
def same (b c : Board) : Bool := b.samePolicy c && b.set.same c.set

/-! ## Making boards -/

/-- The palettes of the cells of an array of palettes by slots by three. -/
def palettesOf (size slots : Nat) (data : List Float) : List (Vector (Rgb Float) slots) :=
  let flat := (Rgb.ofChannels data).toArray
  (List.range size).map fun p => Vector.ofFn fun (k : Fin slots) => flat.getD (p * slots + k.val) ⟨0, 0, 0⟩

def ofColors (policy colors : Value) : Result Board := do
  let t ← Tensor.reals colors
  match t.shape with
  | [size, slots, 3] => pure { policy, set := ⟨policyOf policy, slots, palettesOf size slots t.data.toList⟩ }
  | shape => .error (.paletteShape shape)

/-- A first colour for each of `n` palettes: one for all, or one for each. -/
def zerosOf (n : Nat) (color : Value) : Result (List (Rgb Float)) := do
  match (← Tensor.reals color).spreadTo? [n, 1, 3] with
  | some t => pure (Rgb.ofChannels t.data.toList)
  | none => refuse .shape

/-- A board with one colour in each palette, behind colour zero if the policy has one (`from_seeds`). A stranger has. -/
def ofSeeds (policy shared transparent : Value) (seeds : List (Rgb Float)) : Result Board :=
  match policy with
  | .zero .unique => pure { policy, set := ⟨.unique, 1, seeds.map fun c => #v[c]⟩ }
  | _ => do
    let color := match policy with
      | .zero .shared => shared
      | _ => transparent
    let zeros ← zerosOf seeds.length color
    pure { policy, set := ⟨policyOf policy, 2, zeros.zipWith (fun z c => #v[z, c]) seeds⟩ }

/-! ## Changing boards -/

/-- The cells of the colours of a set, as an array of palettes by slots by three. -/
def cells (s : PaletteSet Float) : Tensor Float :=
  ⟨[s.size, s.slots, 3], (s.toLists.flatMap fun p => p.flatMap Rgb.toList).toArray⟩

/-- Cells that two values choose from the colours of a set, and whether a move of them moves the colours themselves. -/
structure Selection where
  places : Places
  live : Bool

namespace Selection

def of (s : PaletteSet Float) (palette slot : Value) : Result Selection := do
  let i ← Index.ofValue palette
  let j ← Index.ofValue slot
  pure ⟨← Index.across [s.size, s.slots, 3] i j, !(i.isCopy || j.isCopy)⟩

def read (s : PaletteSet Float) (x : Selection) : Tensor Float :=
  let data := (cells s).data
  x.places.map fun i => data.getD i 0.0

/-- Puts numbers into the cells of a selection. -/
def write (s : PaletteSet Float) (x : Selection) (numbers : List Float) : PaletteSet Float :=
  let data := (x.places.data.toList.zip numbers).foldl (fun data (i, v) => data.setIfInBounds i v) (cells s).data
  { s with palettes := palettesOf s.size s.slots data.toList }

end Selection

/-- Whether a value is zero, of whatever kind of number. -/
def isZero (v : Value) : Bool :=
  match Number.ofValue v with
  | .ok n => !n.isNonzero
  | .error _ => false

/-- The cells of an array written to a place of some shape. -/
def writtenTo (shape : List Nat) (t : Tensor Float) : Result (List Float) :=
  (t.writtenTo? shape).elim (refuse .shape) fun u => pure u.data.toList

/-- Writes colours to the first slot of all palettes. -/
def writeFirst (s : PaletteSet Float) (t : Tensor Float) : Result (PaletteSet Float) := do
  if s.slots = 0 then refuse .position
  else
    let colors := Rgb.ofChannels (← writtenTo [s.size, 3] t)
    pure { s with palettes := s.palettes.zipWith (fun v c => PaletteSet.modifySlot v 0 fun _ => c) colors }

def cellsOf (c : Rgb Float) : Tensor Float := ⟨[3], c.toList.toArray⟩

/-- Combines two arrays cell by cell, or refuses them. -/
def combine (f : Float → Float → Float) (a b : Tensor Float) : Result (Tensor Float) :=
  (Tensor.zipWith? f a b).elim (refuse .shape) pure

/-- The numbers of an array by which another one is multiplied. -/
def factorsOf (v : Value) : Result (Tensor Float) := do
  let t ← Tensor.ofValue pure v
  if Kind.ofTensor t = .text then refuse .operation else pure ⟨t.shape, ← t.data.mapM Value.factor⟩

/-- Whether a value makes an array that keeps what it multiplies from being numbers of an array. -/
def isForeign : Value → Result Bool
  | .list vs => do pure (decide (Kind.ofTensor (← Tensor.ofValue pure (.list vs)) = .other))
  | _ => pure false

/-- The part of the way from colours to a target that a factor says, or one for each cell. -/
def partWay (colors target : Tensor Float) (factor : Value) : Result (Tensor Float) := do
  let way ← combine (fun t x => t - x) target colors
  combine (fun r d => r * d) (← factorsOf factor) way

def moved (colors way : Tensor Float) : Result (Tensor Float) := combine (fun x d => x + d) colors way

/-- Moves the colour of a slot toward a target. A fixed slot stays; a shared one is moved in the first palette and
written to all. -/
def moveToward (b : Board) (palette slot : Value) (target : Tensor Float) (factor : Value) : Result Board := do
  let s ← b.known
  if isZero slot ∧ s.isFixed 0 then pure b
  else if isZero slot ∧ s.isShared 0 then
    match s.color? 0 0 with
    | none => refuse .position
    | some c => do pure (b.withSet (← writeFirst s (← moved (cellsOf c) (← partWay (cellsOf c) target factor))))
  else
    let x ← Selection.of s palette slot
    let way ← partWay (x.read s) target factor
    if ← isForeign factor then refuse .operation
    else
      let t ← moved (x.read s) way
      if t.shape ≠ x.places.shape then refuse .shape
      else pure (if x.live then b.withSet (x.write s t.data.toList) else b)

/-- Moves the colour of a slot toward a target of any kind (`move_color`). -/
def moveColor (b : Board) (palette slot target factor : Value) : Result Board := do
  b.moveToward palette slot (← Tensor.reals target) factor

/-- Writes the colour of a slot (`set_color`). A fixed slot stays; a shared one is written in all palettes. -/
def setColor (b : Board) (palette slot value : Value) : Result Board := do
  let value ← Tensor.reals value
  let s ← b.known
  if isZero slot ∧ s.isFixed 0 then pure b
  else if isZero slot ∧ s.isShared 0 then do pure (b.withSet (← writeFirst s value))
  else
    let x ← Selection.of s palette slot
    pure (b.withSet (x.write s (← writtenTo x.places.shape value)))

/-- Appends a slot with a seed for every palette (`add_slot`). -/
def addSlot (b : Board) (seeds : Value) : Result Board := do
  let t ← Tensor.reals seeds
  if t.data.size = 3 * b.set.size then
    pure (b.withSet (b.set.addSlot ⟨0, 0, 0⟩ (Rgb.ofChannels t.data.toList)))
  else refuse .shape

/-- Lengthens the palettes to a number of slots of any kind, when there is room for them. -/
def padded (b : Board) (slots : Value) : Result Board := do
  let n ← slots.integer
  let missing := n - b.set.slots
  if Value.wordLimit ≤ missing then refuse .overflow
  else
    Tensor.checkCount (if b.set.slots = 0 then 0 else max 1 b.set.palettes.length * missing.toNat * 3)
    pure (b.withSet (b.set.padded n.toNat))

end Board

end Tessera
