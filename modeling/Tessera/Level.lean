import Tessera.Number
import Tessera.Raster
import Tessera.Rgb
/-!
# Levels of a bit depth

With `bits` bits a channel has the levels `k · 255 / (2 ^ bits - 1)`. `snap` takes a value to the nearest
level; a value midway goes up.
-/

namespace Tessera.Level

variable {α : Type} [Scalar α]

/-- The distance of two neighbouring levels (`level_step`). -/
def step (bits : Nat) : α := Scalar.ofNat 255 / Scalar.ofInt ((Nat.pow 2 bits : Nat) - 1 : Int)

/-- The nearest multiple of a step; halves go up. -/
@[inline] def snapTo (step x : α) : α := Scalar.floor (x / step + Scalar.ratio 1 2) * step

/-- The nearest level of a bit depth (`posterize`). -/
@[inline] def snap (bits : Nat) (x : α) : α := snapTo (step bits) x

/-- Bits of a number for which there is no room. -/
def mostWide : Int := 0x8000000000

/-- The number of bits as a natural number, when it makes levels: a positive number whose levels a
floating-point number can count. -/
def checkBits (bits : Int) : Result Nat :=
  if bits < 0 then refuse .negative
  else if bits = 0 then refuse .division
  else if mostWide ≤ bits ∧ bits < Value.wordLimit then refuse .memory
  else if 1024 ≤ bits then refuse .overflow
  else pure bits.toNat

def snapByte (α : Type) [Scalar α] (bits : Nat) (x : UInt8) : UInt8 :=
  Scalar.toByte (snap bits (Scalar.ofNat x.toNat : α))

/-- The levels of a byte colour as bytes; from eight bits on nothing changes. -/
def snapColor (α : Type) [Scalar α] (bits : Nat) (c : Rgb UInt8) : Rgb UInt8 :=
  if 8 ≤ bits then c else c.map (snapByte α bits)

/-- The number of bits that a value stands for. -/
def bitsOf (v : Value) : Result Nat := do checkBits (← v.integer)

/-- The levels of bytes as bytes, for a number of bits of any kind (`posterize_u8`). -/
def snapBytes (α : Type) [Scalar α] (bits : Value) (xs : List UInt8) : Result (List UInt8) := do
  let given ← Number.ofValue bits
  if Number.le (.whole 8) given then pure xs
  else
    let n ← bitsOf bits
    pure (xs.map (snapByte α n))

end Tessera.Level
