import Tessera.Decimal.Read
import Tessera.Error
/-!
# Numbers of two kinds

A number that is handed in is whole or real. Whole numbers are exact and of any size; real ones are floating-point
numbers. Comparing two numbers is exact whatever their kinds are. Arithmetic stays whole where it can and otherwise
is real, and a whole number that no real one is near to is refused.

`Value.integer` and `Value.real` take a number from a value of any kind, from a text as well.
-/

namespace Tessera

/-- A whole or a real number. -/
inductive Number where
  | whole (n : Int)
  | real (x : Float)
deriving Inhabited

namespace Number

def ofValue : Value → Result Number
  | .int n => pure (whole n)
  | .bool b => pure (whole (if b then 1 else 0))
  | .float x => pure (real x)
  | _ => refuse .kind

def toValue : Number → Value
  | whole n => .int n
  | real x => .float x

def toFloat : Number → Result Float
  | real x => pure x
  | whole n =>
    let x := Decimal.ofInt n
    if x.isFinite then pure x else refuse .overflow

/-- The whole part of a real number, toward zero. -/
def truncateReal (x : Float) : Result Int :=
  if x.isNaN then refuse .notNumber
  else if !x.isFinite then refuse .overflow
  else pure (Decimal.truncated x)

def truncate : Number → Result Int
  | whole n => pure n
  | real x => truncateReal x

/-! ## Order -/

/-- How a whole number compares with a real one; not at all when that is no number. -/
def compareReal (n : Int) (x : Float) : Option Ordering :=
  if x.isNaN then none
  else if !x.isFinite then some (if Decimal.isNegative x then .gt else .lt)
  else
    let v := Decimal.decode x
    some (compare (n * (v.den : Int)) (if Decimal.isNegative x then -(v.num : Int) else v.num))

/-- Whether a number is less than another one. -/
def lt : Number → Number → Bool
  | whole a, whole b => decide (a < b)
  | whole a, real b => compareReal a b == some .lt
  | real a, whole b => compareReal b a == some .gt
  | real a, real b => decide (a < b)

def le : Number → Number → Bool
  | whole a, whole b => decide (a ≤ b)
  | whole a, real b => compareReal a b == some .lt || compareReal a b == some .eq
  | real a, whole b => compareReal b a == some .gt || compareReal b a == some .eq
  | real a, real b => decide (a ≤ b)

def eq : Number → Number → Bool
  | whole a, whole b => a == b
  | whole a, real b => compareReal a b == some .eq
  | real a, whole b => compareReal b a == some .eq
  | real a, real b => a == b

/-- The lesser of two numbers, the first of equals. -/
def min (x y : Number) : Number := if y.lt x then y else x

/-- The greater of two numbers, the first of equals. -/
def max (x y : Number) : Number := if x.lt y then y else x

/-! ## Arithmetic -/

/-- An operation on whole numbers, or on the real numbers nearest to them. -/
def combine (f : Int → Int → Int) (g : Float → Float → Float) : Number → Number → Result Number
  | whole a, whole b => pure (whole (f a b))
  | x, y => do
    let a ← x.toFloat
    let b ← y.toFloat
    pure (real (g a b))

def add (x y : Number) : Result Number := combine (· + ·) (· + ·) x y

def sub (x y : Number) : Result Number := combine (· - ·) (· - ·) x y

def mul (x y : Number) : Result Number := combine (· * ·) (· * ·) x y

/-- The quotient of whole numbers as the nearest real number. -/
def wholeQuotient (a b : Int) : Result Float :=
  if b = 0 then refuse .division
  else
    let q := Decimal.ofRatio a.natAbs b.natAbs
    if q.isFinite then pure (if decide (a < 0) == decide (b < 0) then q else -q) else refuse .overflow

/-- The quotient of two numbers, which is always real. -/
def div : Number → Number → Result Float
  | whole a, whole b => wholeQuotient a b
  | x, y => do
    let a ← x.toFloat
    let b ← y.toFloat
    if b == 0.0 then refuse .division else pure (a / b)

/-- What is left of a real number when a finite one is taken from it as often as possible, with the sign of the
first. -/
def rest (x y : Float) : Float :=
  let v := Decimal.decode x
  let w := Decimal.decode y
  let left := Decimal.ofRatio (v.num * w.den % (w.num * v.den)) (v.den * w.den)
  if Decimal.isNegative x then -left else left

/-- What is left of a real number, with the sign of the divisor. -/
def realMod (x y : Float) : Float :=
  if x.isNaN || y.isNaN || !x.isFinite then 0.0 / 0.0
  else
    let left := if y.isFinite then rest x y else x
    if left == 0.0 then (if Decimal.isNegative y then -0.0 else 0.0)
    else if Decimal.isNegative left == Decimal.isNegative y then left
    else left + y

/-- What is left of a number when another one is taken from it as often as possible. -/
def mod : Number → Number → Result Number
  | whole a, whole b => if b = 0 then refuse .division else pure (whole (Int.fmod a b))
  | x, y => do
    let a ← x.toFloat
    let b ← y.toFloat
    if b == 0.0 then refuse .division else pure (real (realMod a b))

def isNonzero : Number → Bool
  | whole n => n != 0
  | real x => x != 0.0

/-! ## Text -/

/-- Groups the digits before the point by threes, unless there is an exponent. -/
def groupWhole (s : List Char) : List Char :=
  if s.any fun c => c == 'e' || c == 'n' then s
  else
    let (sign, body) : List Char × List Char := match s with
      | '-' :: body => (['-'], body)
      | body => ([], body)
    sign ++ Decimal.groupDigits (body.takeWhile (· != '.')) ++ body.dropWhile (· != '.')

/-- A number with its digits in groups of three. -/
def grouped : Number → String
  | whole n => Decimal.grouped n
  | real x => String.ofList (groupWhole (Decimal.text x).toList)

end Number

namespace Value

def integer : Value → Result Int
  | int n => pure n
  | bool b => pure (if b then 1 else 0)
  | float x => Number.truncateReal x
  | text s => (Decimal.readInt? 10 s.toList).elim (refuse .notNumber) pure
  | _ => refuse .kind

def real : Value → Result Float
  | text s => (Decimal.readFloat? s.toList).elim (refuse .notNumber) pure
  | v => do (← Number.ofValue v).toFloat

/-- The real number that a value stands for in an array, where what is missing is no number. -/
def cell : Value → Result Float
  | null => pure (0.0 / 0.0)
  | v => v.real

/-- A number by which an array can be multiplied. -/
def factor : Value → Result Float
  | text _ => refuse .operation
  | v => do (← Number.ofValue v).toFloat

/-- The bound of words of 64 bits with a sign. -/
def wordLimit : Int := 0x8000000000000000

/-- The integer of an array whose elements lie from `lo` to below `hi`. The whole part of a number has to lie there. -/
def within (lo hi : Int) (v : Value) : Result Int := do
  let n ← v.integer
  if lo ≤ n ∧ n < hi then pure n else refuse .overflow

/-- The parts of a value that has some: the values of a list, the characters of a text, the names of a dictionary. -/
def parts : Value → Result (List Value)
  | list vs => pure vs
  | text s => pure (s.toList.map fun c => text (String.ofList [c]))
  | dict names _ => pure (names.map text)
  | _ => refuse .kind

/-- At-most for two numbers; false for anything else. -/
def numberLe (a b : Value) : Bool :=
  match Number.ofValue a, Number.ofValue b with
  | .ok x, .ok y => x.le y
  | _, _ => false

end Value

end Tessera
