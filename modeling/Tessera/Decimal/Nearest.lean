import Tessera.Decimal.Basic
/-!
# The nearest floating-point number

Every quotient of natural numbers has a nearest floating-point number: the mantissa of fifty-three bits that lies
nearest, an even one midway. Below the least normal number the mantissas lie as far apart as they do there, and
above the largest number is infinity. The number is put together from its bits, so nothing is rounded twice.
-/

namespace Tessera.Decimal

/-- The exponent `e` with `2 ^ e ≤ num / den < 2 ^ (e + 1)`, for a positive quotient. -/
def binaryMagnitude (num den : Nat) : Int :=
  let e := (Nat.log2 num : Int) - (Nat.log2 den : Int)
  if den * Nat.pow 2 e.toNat ≤ num * Nat.pow 2 (-e).toNat then e else e - 1

/-- The positive number `mantissa · 2 ^ exponent`, for a mantissa of at most fifty-three bits that has all of them
unless the exponent is the least. -/
def ofBinary (mantissa : Nat) (exponent : Int) : Float :=
  if mantissa < Nat.pow 2 52 then Float.ofBits mantissa.toUInt64
  else
    let bits := (exponent + 1074).toNat * Nat.pow 2 52 + mantissa
    Float.ofBits (if bits < 2047 * Nat.pow 2 52 then bits.toUInt64 else 0x7ff0000000000000)

/-- The floating-point number nearest to `num / den`. -/
def ofRatio (num den : Nat) : Float :=
  if num = 0 then 0.0
  else
    let exponent := max (binaryMagnitude num den - 52) (-1074)
    ofBinary (roundDiv (num * Nat.pow 2 (-exponent).toNat) (den * Nat.pow 2 exponent.toNat)) exponent

/-- The floating-point number nearest to a natural number. -/
def ofNat (n : Nat) : Float := if n < Nat.pow 2 53 then Float.ofNat n else ofRatio n 1

/-- The floating-point number nearest to an integer. -/
def ofInt : Int → Float
  | .ofNat n => ofNat n
  | .negSucc n => -(ofNat (n + 1))

/-- The whole part of a finite number, toward zero. -/
def truncated (x : Float) : Int :=
  let v := decode x
  let n := v.num / v.den
  if isNegative x then -(n : Int) else n

/-- The least number from which on every number is whole, `2 ^ 52`. -/
def allWhole : Float := Float.ofBits 0x4330000000000000

/-- The largest whole number that is not above a number. -/
def floor (x : Float) : Float :=
  let size := x.abs
  if size < allWhole then
    let below := size.toUInt64.toFloat
    if x < Float.ofNat 0 then (if below < size then -below - Float.ofNat 1 else -below) else below
  else x

/-- The integer of a whole number; what is not finite has none. -/
def toInt (x : Float) : Int :=
  let size := x.abs
  if size < allWhole then
    let n : Int := size.toUInt64.toNat
    if x < Float.ofNat 0 then -n else n
  else if x.isFinite then truncated x else 0

end Tessera.Decimal
