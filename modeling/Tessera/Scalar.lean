import Tessera.Decimal.Nearest
/-!
# Scalars

Channel values, weights and errors are scalars. The arithmetic of the library is written once, over a class,
so that it runs with floating-point numbers and can be reasoned about with rational ones.
-/

namespace Tessera

/-- The numbers that colours and errors are made of. -/
class Scalar (α : Type) extends Add α, Sub α, Mul α, Div α, LT α, LE α, BEq α where
  /-- Less-than is decided. -/
  decLt : DecidableLT α
  /-- At-most is decided. -/
  decLe : DecidableLE α
  /-- The scalar of an integer. -/
  ofInt : Int → α
  /-- The largest whole scalar that is not above the argument. -/
  floor : α → α
  /-- The integer of a whole scalar. -/
  toInt : α → Int
  /-- Whether the scalar is an ordinary number. -/
  isFinite : α → Bool
  /-- Whether the scalar is no number at all, which compares with nothing. The rational numbers have none. -/
  isNaN : α → Bool
  /-- The cost of choosing from nothing. Floating point has an infinity for it. The rational numbers have
  none and answer zero, so a statement about them asks for something to choose from. -/
  infinite : α

attribute [reducible, instance] Scalar.decLt Scalar.decLe

instance : Scalar Float where
  decLt := inferInstance
  decLe := inferInstance
  ofInt := Decimal.ofInt
  floor := Decimal.floor
  toInt := Decimal.toInt
  isFinite := Float.isFinite
  isNaN := Float.isNaN
  infinite := 1.0 / 0.0

instance : Scalar Rat where
  decLt := inferInstance
  decLe := inferInstance
  ofInt n := (n : Rat)
  floor x := (x.floor : Rat)
  toInt := Rat.floor
  isFinite _ := true
  isNaN _ := false
  infinite := 0

namespace Scalar

variable {α : Type} [Scalar α]

@[inline] def ofNat (n : Nat) : α := ofInt (n : Int)

@[inline] def ratio (num : Int) (den : Nat) : α := ofInt num / ofNat den

@[specialize] def sum (xs : List α) : α := xs.foldl (· + ·) (ofNat 0)

@[specialize] def lane (xs : List α) (j : Nat) : α :=
  sum ((xs.zipIdx.filter fun x => x.2 % 8 == j).map Prod.fst)

/-- The sum by eight lanes, which are added in pairs. What is left of the last row of eight follows one by one. -/
@[specialize] def sumLanes (xs : List α) : α :=
  let whole := xs.take (xs.length / 8 * 8)
  let pair (j : Nat) : α := lane whole j + lane whole (j + 1)
  (xs.drop (xs.length / 8 * 8)).foldl (· + ·) (pair 0 + pair 2 + (pair 4 + pair 6))

/-- Pairwise sum, by which the numbers of one row or of one column are added (`ndarray.sum`). Long lists are halved at a
multiple of eight. -/
@[specialize] def pairwiseSum (xs : List α) : α :=
  if xs.length < 8 then sum xs
  else if xs.length ≤ 128 then sumLanes xs
  else
    let half := xs.length / 2 / 8 * 8
    pairwiseSum (xs.take half) + pairwiseSum (xs.drop half)
termination_by xs.length
decreasing_by
  · simp only [List.length_take]
    omega
  · simp only [List.length_drop]
    omega

/-- The sum of one of several columns. Columns are added row by row, so each from the left. A column that stands alone is
added pairwise. -/
@[specialize] def columnSum (columns : Nat) (xs : List α) : α := if columns = 1 then pairwiseSum xs else sum xs

@[specialize] def mean (xs : List α) : α := pairwiseSum xs / ofNat xs.length

/-- Keeps a scalar in the unit interval; what is not comparable becomes zero. -/
@[inline] def clampUnit (x : α) : α :=
  let y := if ofNat 0 < x then x else ofNat 0
  if y < ofNat 1 then y else ofNat 1

/-- Whether a whole scalar is twice another one. -/
@[inline] def isEven (x : α) : Bool := floor (x / ofNat 2) * ofNat 2 == x

/-- The nearest whole scalar; halves go to the even neighbour. -/
@[specialize] def rint (x : α) : α :=
  let f := floor x
  let rest := x - f
  if rest < ratio 1 2 then f
  else if ratio 1 2 < rest then f + ofNat 1
  else if isEven f then f else f + ofNat 1

/-- The nearest byte: rounded as by `rint` and kept within `0 … 255`. -/
@[specialize] def toByte (x : α) : UInt8 :=
  let y := rint x
  if y < ofNat 0 then 0 else if ofNat 255 < y then 255 else (toInt y).toNat.toUInt8

/-- Truncation of a non-negative scalar to a natural number. -/
@[inline] def toNat (x : α) : Nat := (toInt (floor x)).toNat

end Scalar

end Tessera
