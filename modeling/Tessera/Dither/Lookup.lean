import Tessera.Tensor.Kind
import Tessera.Text.Template
/-!
# Looking up a pattern

A pattern is asked for by any value: directly, through a family, or through the family it belongs to. A family
hands out the patterns that it registers, so a pattern of the right number of levels may still be refused.
-/

namespace Tessera.Dither

def Pattern.ofValue : Value → Result Pattern
  | .pattern p => pure p
  | .list _ => refuse .kind
  | .dict _ _ => refuse .kind
  | v => reject (.unknownPattern v)

def Family.ofValue : Value → Result Family
  | .family f => pure f
  | .list _ => refuse .kind
  | .dict _ _ => refuse .kind
  | v => reject (.unknownFamily v)

/-- The pattern of a family, when the family registers it (`DitherMapSet.lookup`). -/
def Family.lookup (f : Family) : Value → Result Pattern
  | .pattern p => if f.members.contains p then pure p else .error (.foreignPattern p f)
  | .list _ => refuse .kind
  | .dict _ _ => refuse .kind
  | _ => refuse .member

/-- Whether a family registers what a value is. -/
def Family.registers (f : Family) : Value → Result Bool
  | .pattern p => pure (f.members.contains p)
  | .list _ => refuse .kind
  | .dict _ _ => refuse .kind
  | _ => pure false

/-- The pattern as its own family hands it out (`dither_map_for`). -/
def Pattern.registered : Value → Result Pattern
  | .pattern p => p.family.lookup (.pattern p)
  | _ => refuse .member

/-! ## Ranks at given places -/

/-- What is left of a coordinate when twos are taken from it, when that is whole. A text is filled with the two instead,
and is no coordinate. -/
def halved : Value → Result (Option Int)
  | .text s => do
    Text.Template.check s
    pure none
  | v => do
    match ← (← Number.ofValue v).mod (.whole 2) with
    | .whole n => pure (some n)
    | .real _ => pure none

/-- The rank at a place of any kind (`rank_at`). The coordinates have to be integers. -/
def Pattern.rankAtGiven (p : Pattern) (x y : Value) : Result Nat := do
  match ← halved y, ← halved x with
  | some b, some a => pure (p.rankAt a b)
  | _, _ => refuse .position

/-! ## Regions of any kind -/

/-- How many integers there are below a length, and whether they are words. A length near the end of words is taken for
the first number behind them, and there are none below that. -/
def lengthOf (v : Value) : Result (Nat × Bool) := do
  let n ← Number.ofValue v
  let (x, isWord) ← match n with
    | .whole k => do pure (Decimal.ofInt k, decide (Kind.ofInt k = .whole))
    | .real x => pure (x, false)
  let bound := Decimal.ofInt Value.wordLimit
  if !(-bound ≤ x && x ≤ bound) then refuse .shape
  else
    let least := match n with
      | .whole k => k
      | .real x => Decimal.truncated x.ceil
    let count := if x == bound then 0 else least.toNat
    Tensor.checkCount count
    pure (count, isWord)

/-- The integers of a length, moved by a start that may be an array, when they are all words. -/
def line (length start : Value) : Result (Option (Tensor Int)) := do
  let (count, isWord) ← lengthOf length
  let moves ← Tensor.ofValue pure start
  let kind ← match start with
    | .int n => do
      let _ ← Number.toFloat (.whole n)
      if isWord && Kind.ofInt n != .whole then refuse .overflow else pure Kind.whole
    | _ => pure (Kind.ofTensor moves)
  if kind = .text then refuse .operation
  else
    let base : Tensor Nat := ⟨[count], Array.range count⟩
    match Tensor.zipWith? (fun i v => (i, v)) base moves with
    | none => refuse .shape
    | some sums =>
      let moved ← sums.data.mapM fun ((i : Nat), v) => do Number.add (.whole i) (← Number.ofValue v)
      let cells := moved.filterMap fun
        | .whole n => some n
        | .real _ => none
      pure (if isWord && (kind = .whole || kind = .truth) then some ⟨sums.shape, cells⟩ else none)

/-- Adds a dimension of one behind the first. -/
def asColumn {β : Type} (t : Tensor β) : Tensor β := { t with shape := t.shape.take 1 ++ 1 :: t.shape.drop 1 }

def asRow {β : Type} (t : Tensor β) : Tensor β := { t with shape := 1 :: t.shape }

/-- The ranks of a region of any kind (`tiled`). -/
def Pattern.regionGiven (p : Pattern) (height width x0 y0 : Value) : Result (Tensor Nat) := do
  match ← line height y0, ← line width x0 with
  | some ys, some xs =>
    match Tensor.zipWith? (fun y x : Int => p.rankAt x y) (asColumn ys) (asRow xs) with
    | some t => pure t
    | none => refuse .position
  | _, _ => refuse .position

/-- The ranks of a region by a value with its sizes, and then with its start or a part of it. -/
def Pattern.regionOf (p : Pattern) (v : Value) : Result (Tensor Nat) := do
  match ← v.parts with
  | [height, width] => p.regionGiven height width (.int 0) (.int 0)
  | [height, width, x0] => p.regionGiven height width x0 (.int 0)
  | [height, width, x0, y0] => p.regionGiven height width x0 y0
  | _ => refuse .kind

end Tessera.Dither
