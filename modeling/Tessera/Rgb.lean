import Tessera.Scalar
/-!
# Colours

A colour is three channels. Working colours have scalar channels, pictures have byte channels, and a colour
read from text has integer channels. All distances are squared Euclidean distances.
-/

namespace Tessera

/-- Red, green and blue. -/
structure Rgb (α : Type) where
  r : α
  g : α
  b : α
deriving DecidableEq, Repr, Inhabited, BEq

instance {α : Type} [BEq α] [LawfulBEq α] : LawfulBEq (Rgb α) where
  rfl := by
    rintro ⟨r, g, b⟩
    simp [BEq.beq, instBEqRgb.beq]
  eq_of_beq := by
    rintro ⟨r, g, b⟩ ⟨r', g', b'⟩ h
    simpa [BEq.beq, instBEqRgb.beq, and_assoc] using h

namespace Rgb

variable {α β : Type}

@[inline] def map (f : α → β) (c : Rgb α) : Rgb β := ⟨f c.r, f c.g, f c.b⟩

@[inline] def zipWith {γ : Type} (f : α → β → γ) (c : Rgb α) (d : Rgb β) : Rgb γ :=
  ⟨f c.r d.r, f c.g d.g, f c.b d.b⟩

def toList (c : Rgb α) : List α := [c.r, c.g, c.b]

def ofChannels : List α → List (Rgb α)
  | r :: g :: b :: rest => ⟨r, g, b⟩ :: ofChannels rest
  | _ => []

def fill (x : α) : Rgb α := ⟨x, x, x⟩

/-- Order of byte colours: by red, then green, then blue. -/
def before (c d : Rgb UInt8) : Bool :=
  c.r < d.r || (c.r == d.r && (c.g < d.g || (c.g == d.g && c.b < d.b)))

section Scalar

variable [Scalar α]

@[inline] def sqDist (c d : Rgb α) : α :=
  let r := c.r - d.r
  let g := c.g - d.g
  let b := c.b - d.b
  r * r + g * g + b * b

@[inline] def add (c d : Rgb α) : Rgb α := c.zipWith (· + ·) d

@[inline] def sub (c d : Rgb α) : Rgb α := c.zipWith (· - ·) d

@[inline] def scale (k : α) (c : Rgb α) : Rgb α := c.map (· * k)

/-- The part `rate` of the way from `c` to `target`. -/
@[inline] def towards (c : Rgb α) (rate : α) (target : Rgb α) : Rgb α :=
  c.zipWith (fun x t => x + rate * (t - x)) target

/-- Whether all channels are equal as scalars. -/
@[inline] def same (c d : Rgb α) : Bool := c.r == d.r && c.g == d.g && c.b == d.b

@[inline] def ofBytes (c : Rgb UInt8) : Rgb α := c.map fun x => Scalar.ofNat x.toNat

@[inline] def ofInts (c : Rgb Int) : Rgb α := c.map Scalar.ofInt

/-- The byte colour nearest to a scalar colour. -/
@[inline] def toBytes (c : Rgb α) : Rgb UInt8 := c.map Scalar.toByte

@[specialize] def sum (cs : List (Rgb α)) : Rgb α := cs.foldl add (fill (Scalar.ofNat 0))

end Scalar

end Rgb

end Tessera
