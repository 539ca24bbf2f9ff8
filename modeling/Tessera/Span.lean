import Tessera.Number
/-!
# Spans

Long lists are worked on in spans of rows. The results of the spans stand in the order of the spans.
-/

namespace Tessera.Span

/-- Consecutive spans of `size` rows from `start` to `stop`. -/
def starting (size start stop : Nat) : List (Nat × Nat) :=
  if _h : start < stop ∧ 0 < size then
    (start, min (start + size) stop) :: starting size (start + size) stop
  else []
termination_by stop - start
decreasing_by omega

/-- The spans of at most `size` rows that make up `height` rows (`split_rows_by_size`). A size below one counts as one. -/
def split (height size : Int) : List (Nat × Nat) := starting (max 1 size).toNat 0 height.toNat

/-- The spans of a height and a size of any kind. The height has to be an integer, the size has to stand for one. -/
def splitGiven (height size : Value) : Result (List (Nat × Nat)) := do
  let n ← size.integer
  match height with
  | .int h => pure (split h n)
  | .bool b => pure (split b.toInt n)
  | _ => refuse .kind

/-- The end of a span of a height and a size of any kind: the height as it is given, unless the span is full. -/
def endGiven (height size : Value) (start stop : Nat) : Value :=
  match size.integer with
  | .ok n => if stop < start + (max 1 n).toNat then height else .int stop
  | .error _ => .int stop

/-- Applies a function to both ends of every span (`map_spans`). -/
def mapSpans {β : Type} (f : Nat → Nat → β) (spans : List (Nat × Nat)) : List β :=
  spans.map fun (a, b) => f a b

/-- Works on a list span by span and joins the results. -/
def chunked {β γ : Type} (size : Nat) (f : List β → List γ) (rows : List β) : List γ :=
  (mapSpans (fun a b => f ((rows.drop a).take (b - a))) (split rows.length size)).flatten

/-- Rows in a span when nothing else is asked for (`CHUNK_ROWS`). -/
def chunkRows : Nat := 4096

end Tessera.Span
