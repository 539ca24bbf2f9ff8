import Tessera.Decimal.Basic
/-!
# The shortest decimal text

A floating-point number is written with the fewest significant digits that read back as the same number; of
those with that many digits, the nearest one. Seventeen digits always suffice.
-/

namespace Tessera.Decimal

/-- The reals that round to a number lie between `low / 4 · 2 ^ exponent` and `high / 4 · 2 ^ exponent`; the
ends belong to them when the mantissa is even. Below a power of two the numbers are twice as dense. -/
structure Interval where
  low : Nat
  high : Nat
  exponent : Int
  closed : Bool

def Binary.interval (v : Binary) : Interval where
  low := if v.mantissa = Nat.pow 2 52 && decide (-1074 < v.exponent) then 4 * v.mantissa - 1 else 4 * v.mantissa - 2
  high := 4 * v.mantissa + 2
  exponent := v.exponent - 2
  closed := v.mantissa % 2 == 0

def compareScaled (m : Nat) (s : Int) (k : Nat) (e : Int) : Ordering :=
  compare (m * Nat.pow 10 s.toNat * Nat.pow 2 (-e).toNat) (k * Nat.pow 2 e.toNat * Nat.pow 10 (-s).toNat)

/-- Whether `m · 10 ^ s` lies in the interval. -/
def Interval.holds (t : Interval) (m : Nat) (s : Int) : Bool :=
  let below := compareScaled m s t.low t.exponent
  let above := compareScaled m s t.high t.exponent
  if t.closed then below != .lt && above != .gt else below == .gt && above == .lt

/-- The best of the two neighbours of the quotient on the grid of `k` digits that lies in the interval. -/
def hit? (t : Interval) (num den k : Nat) (e : Int) : Option (Nat × Int) :=
  let s := e - (k : Int) + 1
  let (n, d) := shifted num den (-s)
  let near := roundDiv n d
  let far := if near = n / d then n / d + 1 else n / d
  if t.holds near s then some (near, s) else if t.holds far s then some (far, s) else none

def search (t : Interval) (num den : Nat) (e : Int) : Nat → Nat → Nat × Int
  | 0, k => (significant num den k).map id fun x => x - (k : Int) + 1
  | fuel + 1, k =>
    match hit? t num den k e with
    | some r => r
    | none => search t num den e fuel (k + 1)

def shortest (v : Binary) : Nat × Int :=
  search v.interval v.num v.den (magnitude v.num v.den) 17 1

/-- Writes digits with the exponent of the first of them: positional from `10 ^ -4` up to below `10 ^ 16`, and
with an exponent of at least two digits otherwise. A whole number keeps one zero after the point. -/
def layout (ds : List Char) (e : Int) : List Char :=
  if -4 ≤ e && e < 16 then
    if 0 ≤ e then
      let k := e.toNat + 1
      let whole := ds.take k ++ List.replicate (k - ds.length) '0'
      let rest := ds.drop k
      whole ++ '.' :: (if rest.isEmpty then ['0'] else rest)
    else '0' :: '.' :: List.replicate ((-e).toNat - 1) '0' ++ ds
  else
    let body :=
      match ds with
      | [] => []
      | d :: rest => if rest.isEmpty then [d] else d :: '.' :: rest
    let exp := digits e.natAbs
    body ++ 'e' :: (if e < 0 then '-' else '+') :: List.replicate (2 - exp.length) '0' ++ exp

/-- Drops the zeros at the end of a digit sequence. -/
def dropZeros (ds : List Char) : List Char := (ds.reverse.dropWhile (· == '0')).reverse

/-- The shortest text of a floating-point number. -/
def text (x : Float) : String :=
  if !x.isFinite then special x
  else
    let v := decode x
    let body :=
      if v.mantissa = 0 then ['0', '.', '0']
      else
        let (m, s) := shortest v
        let ds := digits m
        layout (dropZeros ds) (s + ds.length - 1)
    signed (isNegative x) body

end Tessera.Decimal
