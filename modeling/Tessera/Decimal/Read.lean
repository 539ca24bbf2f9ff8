import Tessera.Decimal.Nearest
import Tessera.Text.Blank
import Tessera.Text.Digit
/-!
# Reading numbers

Integers and floating-point numbers as they are written by hand: blanks around, one sign, digits of any
script, single underscores between digits, and for floating point a point, an exponent or a name.
-/

namespace Tessera.Decimal

/-- Digits with single underscores between them: the value and the number of digits. The flag says that the
last character was a digit. -/
def digitsFrom (base : Nat) : Nat → Nat → Bool → List Char → Option (Nat × Nat)
  | value, count, afterDigit, [] => if afterDigit then some (value, count) else none
  | value, count, afterDigit, c :: cs =>
    if c == '_' then if afterDigit then digitsFrom base value count false cs else none
    else
      match Text.digitValue? base c with
      | some v => digitsFrom base (value * base + v) (count + 1) true cs
      | none => none

/-- One sign, or none: whether it was a minus, and the rest. -/
def splitSign : List Char → Bool × List Char
  | '-' :: cs => (true, cs)
  | '+' :: cs => (false, cs)
  | cs => (false, cs)

/-- The most digits of an integer in base ten, in a text that is read or written. -/
def maxDigits : Nat := 4300

/-- Whether an integer may be written in base ten. -/
def isWritable (n : Int) : Bool := decide (n.natAbs < Nat.pow 10 maxDigits)

/-- Whether an integer has more digits than may be read. -/
def isTooLong (base count : Nat) : Bool := base == 10 && decide (maxDigits < count)

/-- Digits without the mark of base sixteen, which is a zero and an x. An underscore may follow it. -/
def dropMark (base : Nat) (s : List Char) : List Char :=
  match base, s with
  | 16, '0' :: x :: rest =>
    if x.toLower = 'x' then
      match rest with
      | '_' :: rest => rest
      | rest => rest
    else s
  | _, s => s

def readInt? (base : Nat) (s : List Char) : Option Int :=
  let (neg, body) := splitSign (Text.trimBoth Text.isNumberBlank s)
  match digitsFrom base 0 0 false (dropMark base body) with
  | some (v, count) => if isTooLong base count then none else some (if neg then -(v : Int) else v)
  | none => none

/-- Splits at the first character of a class; the second part is absent when there is none. -/
def splitAt? (p : Char → Bool) (s : List Char) : List Char × Option (List Char) :=
  match s.dropWhile fun c => !p c with
  | [] => (s, none)
  | _ :: rest => (s.takeWhile fun c => !p c, some rest)

def optionalDigits (s : List Char) : Option (Nat × Nat) :=
  if s.isEmpty then some (0, 0) else digitsFrom 10 0 0 false s

/-- The nearest floating-point number to `m · 10 ^ e`; exponents far out of range are cut before they cost
time. -/
def scientific (m : Nat) (e : Int) : Float :=
  if m = 0 then 0.0
  else
    let top := e + ((Nat.toDigits 10 m).length : Int)
    if 400 < top then 1.0 / 0.0
    else if top < -400 then 0.0
    else ofRatio (m * Nat.pow 10 e.toNat) (Nat.pow 10 (-e).toNat)

/-- The digits of an exponent, with a sign or without. -/
def readExponent? (s : List Char) : Option Int :=
  let (neg, body) := splitSign s
  (digitsFrom 10 0 0 false body).map fun (v, _) => if neg then -(v : Int) else v

/-- An unsigned decimal with point and exponent. -/
def readUnsigned? (s : List Char) : Option Float := do
  let (mantissa, exponent) := splitAt? (fun c => c == 'e' || c == 'E') s
  let (whole, fraction) := splitAt? (· == '.') mantissa
  let (w, wn) ← optionalDigits whole
  let (f, fn) ← optionalDigits (fraction.getD [])
  if wn + fn = 0 then none
  else
    let e ← (exponent.map readExponent?).getD (some 0)
    pure (scientific (w * Nat.pow 10 fn + f) (e - fn))

def readFloat? (s : List Char) : Option Float :=
  let (neg, body) := splitSign (Text.trimBoth Text.isNumberBlank s)
  let name := String.ofList (body.map Char.toLower)
  let value :=
    if name == "inf" || name == "infinity" then some (1.0 / 0.0)
    else if name == "nan" then some (0.0 / 0.0)
    else readUnsigned? body
  value.map fun x => if neg then -x else x

end Tessera.Decimal
