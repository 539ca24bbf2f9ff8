/-!
# Exact decimal digits

A finite floating-point number is `mantissa · 2 ^ exponent`. From these two numbers everything here is exact
arithmetic on natural numbers: the decimal exponent, the digits at a number of places, the digits at a number
of significant figures.
-/

namespace Tessera.Decimal

/-- A finite floating-point number without its sign. -/
structure Binary where
  mantissa : Nat
  exponent : Int
deriving Repr, DecidableEq

def isNegative (x : Float) : Bool := x.toBits >>> 63 != 0

/-- Mantissa and exponent of the absolute value of a finite number. -/
def decode (x : Float) : Binary :=
  let bits := x.toBits.toNat
  let field : Nat := bits / Nat.pow 2 52 % Nat.pow 2 11
  let fraction : Nat := bits % Nat.pow 2 52
  if field = 0 then ⟨fraction, -1074⟩ else ⟨fraction + Nat.pow 2 52, (field : Int) - 1075⟩

namespace Binary

def num (v : Binary) : Nat := v.mantissa * Nat.pow 2 v.exponent.toNat

def den (v : Binary) : Nat := Nat.pow 2 (-v.exponent).toNat

end Binary

/-- The quotient rounded to the nearest whole number; halves go to the even neighbour. -/
def roundDiv (num den : Nat) : Nat :=
  let q := num / den
  let twice := 2 * (num % den)
  if twice < den then q else if den < twice then q + 1 else if q % 2 = 0 then q else q + 1

def digits (n : Nat) : List Char := Nat.toDigits 10 n

def shifted (num den : Nat) (k : Int) : Nat × Nat :=
  if 0 ≤ k then (num * Nat.pow 10 k.toNat, den) else (num, den * Nat.pow 10 (-k).toNat)

/-- The exponent `e` with `10 ^ e ≤ num / den < 10 ^ (e + 1)`, for a positive quotient. -/
def magnitude (num den : Nat) : Int :=
  let e := (digits num).length - ((digits den).length : Int)
  let (n, d) := shifted num den (-e)
  if d ≤ n then e else e - 1

/-- A positive quotient to `k` significant digits: the digits as one number, and the exponent of the first. -/
def significant (num den k : Nat) : Nat × Int :=
  let e := magnitude num den
  let (n, d) := shifted num den ((k : Int) - 1 - e)
  let m := roundDiv n d
  if m = Nat.pow 10 k then (Nat.pow 10 (k - 1), e + 1) else (m, e)

/-- Text of a number with a sign in front when `neg`. -/
def signed (neg : Bool) (body : List Char) : String :=
  String.ofList (if neg then '-' :: body else body)

/-- Puts a point `places` digits from the right, with a digit in front of it. -/
def withPoint (places n : Nat) : List Char :=
  let ds := digits n
  let ds := List.replicate (places + 1 - ds.length) '0' ++ ds
  if places = 0 then ds
  else ds.take (ds.length - places) ++ '.' :: ds.drop (ds.length - places)

def special (x : Float) : String :=
  if x.isNaN then "nan" else if isNegative x then "-inf" else "inf"

/-- Fixed number of places; a half goes to the even neighbour of the exact value. -/
def fixed (places : Nat) (x : Float) : String :=
  if !x.isFinite then special x
  else
    let v := decode x
    signed (isNegative x) (withPoint places (roundDiv (v.num * Nat.pow 10 places) v.den))

/-- Text of an exponent: its sign and at least two digits. -/
def exponentText (e : Int) : List Char :=
  let ds := digits e.natAbs
  (if e < 0 then '-' else '+') :: List.replicate (2 - ds.length) '0' ++ ds

/-- Fixed number of places after the first digit, with an exponent; a half goes to the even neighbour of the exact
value. -/
def exponential (places : Nat) (x : Float) : String :=
  if !x.isFinite then special x
  else
    let v := decode x
    let (m, e) := if v.mantissa = 0 then (0, 0) else significant v.num v.den (places + 1)
    signed (isNegative x) (withPoint places m ++ 'e' :: exponentText e)

/-- Inserts a separator between groups of three digits, counted from the right. -/
def groupDigits (ds : List Char) : List Char :=
  let n := ds.length
  (ds.zipIdx.map fun (c, i) => if 0 < i && (n - i) % 3 == 0 then [',', c] else [c]).flatten

/-- An integer with its digits in groups of three. -/
def grouped (n : Int) : String := signed (decide (n < 0)) (groupDigits (digits n.natAbs))

/-- An integer in hexadecimal, padded with zeros to two characters including the sign. -/
def hexPair (n : Int) : String :=
  let ds := Nat.toDigits 16 n.natAbs
  if n < 0 then signed true ds else String.ofList (List.replicate (2 - ds.length) '0' ++ ds)

end Tessera.Decimal
