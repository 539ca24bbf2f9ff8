import Tessera.Tensor
/-!
# Kinds of arrays

All cells of an array are of one kind. When values of several kinds are put into one array, they become what all of them
can be: truth values become numbers, whole numbers become real ones beside a real one, and everything becomes text beside
a text. Whole numbers are words of 64 bits, with a sign or without; the two meet only in the real numbers. What fits none
of this stays a value of its own, and so does all that stands beside it.
-/

namespace Tessera

/-- What the cells of an array are. -/
inductive Kind where
  | truth
  | whole
  | unsigned
  | real
  | text
  | other
deriving DecidableEq, Repr, Inhabited

namespace Kind

/-- The kind of a whole number: a word with a sign, a word without one, or neither. -/
def ofInt (n : Int) : Kind :=
  if -Value.wordLimit ≤ n ∧ n < Value.wordLimit then whole
  else if 0 ≤ n ∧ n < 2 * Value.wordLimit then unsigned
  else other

def ofValue : Value → Kind
  | .bool _ => truth
  | .int n => ofInt n
  | .float _ => real
  | .text _ => text
  | _ => other

/-- The kind that cells of two kinds become together. -/
def join : Kind → Kind → Kind
  | other, _ => other
  | _, other => other
  | text, _ => text
  | _, text => text
  | truth, k => k
  | k, truth => k
  | whole, whole => whole
  | unsigned, unsigned => unsigned
  | _, _ => real

/-- The kind of several values together. An array without cells has real ones. -/
def ofValues : List Value → Kind
  | [] => real
  | v :: vs => vs.foldl (fun k w => k.join (ofValue w)) (ofValue v)

def ofTensor (t : Tensor Value) : Kind := ofValues t.data.toList

/-- Whether arrays of a kind can be added and multiplied. -/
def isNumeric : Kind → Bool
  | text => false
  | other => false
  | _ => true

end Kind

end Tessera
