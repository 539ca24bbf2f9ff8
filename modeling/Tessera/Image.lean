import Tessera.Error
import Tessera.Raster
import Tessera.Rgb
/-!
# Images

An image is a raster of pixels. Some pixels of an image are reserved for colour zero, by the policy.
-/

namespace Tessera

/-- A colour with an alpha channel. -/
structure Pixel where
  color : Rgb UInt8
  alpha : UInt8
deriving DecidableEq, Repr, Inhabited

/-- A raster of pixels of any size. -/
structure Image where
  height : Nat
  width : Nat
  pixels : Raster Pixel height width

namespace Image

/-- Alpha below this counts as transparent (`ALPHA_THRESHOLD`). -/
def alphaThreshold : UInt8 := 128

/-- The byte of a key colour's channel; there is none out of range. -/
def keyByte (n : Int) : Result UInt8 :=
  if 0 ≤ n ∧ n ≤ 255 then pure n.toNat.toUInt8 else refuse .overflow

def keyColor (c : Rgb Int) : Result (Rgb UInt8) := do
  let r ← keyByte c.r
  let g ← keyByte c.g
  let b ← keyByte c.b
  pure ⟨r, g, b⟩

/-- The pixels reserved for colour zero: those with little alpha, those of the key colour, or none (`color_zero_mask`). -/
def reserved (im : Image) (zero : ColorZero) (key : Rgb Int) : Result (Raster Bool im.height im.width) :=
  match zero with
  | .transparentAlpha => pure (im.pixels.map fun p => decide (p.alpha < alphaThreshold))
  | .transparentKey => do
    let k ← keyColor key
    pure (im.pixels.map fun p => decide (p.color = k))
  | _ => pure (im.pixels.map fun _ => false)

/-- The colours of an image without their alpha. -/
def colors (im : Image) : Raster (Rgb UInt8) im.height im.width := im.pixels.map Pixel.color

end Image

end Tessera
