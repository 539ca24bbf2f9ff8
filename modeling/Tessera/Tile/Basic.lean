import Tessera.Rgb
/-!
# Tiles

A tile is a rectangle of the image with the histogram of its colours: every colour that occurs, in ascending
order, with its number of pixels. Reserved pixels are not counted.
-/

namespace Tessera

def total : List Nat → Nat
  | [] => 0
  | n :: ns => n + total ns

namespace Histogram

def insert (c : Rgb UInt8) : List (Rgb UInt8 × Nat) → List (Rgb UInt8 × Nat)
  | [] => [(c, 1)]
  | (d, n) :: rest =>
    if c = d then (d, n + 1) :: rest
    else if c.before d then (c, 1) :: (d, n) :: rest
    else (d, n) :: insert c rest

def ofList (cs : List (Rgb UInt8)) : List (Rgb UInt8 × Nat) := cs.foldr insert []

end Histogram

/-- A rectangle of the image with its colours. -/
structure Tile where
  index : Nat
  x : Nat
  y : Nat
  width : Nat
  height : Nat
  histogram : List (Rgb UInt8 × Nat)
deriving Repr, Inhabited

namespace Tile

/-- The number of pixels that count (`pixel_count`). -/
def pixelCount (t : Tile) : Nat := total (t.histogram.map Prod.snd)

/-- Left, top, right and bottom; the last two are outside. -/
def bounds (t : Tile) : List Nat := [t.x, t.y, t.x + t.width, t.y + t.height]

def colors (t : Tile) : List (Rgb UInt8) := t.histogram.map Prod.fst

/-- The mean colour; black when no pixel counts (`mean_color`). -/
def mean {α : Type} [Scalar α] (t : Tile) : Rgb α :=
  if t.pixelCount = 0 then Rgb.fill (Scalar.ofNat 0)
  else
    (Rgb.sum (t.histogram.map fun (c, n) => Rgb.scale (Scalar.ofNat n) (Rgb.ofBytes c))).map
      (· / Scalar.ofNat t.pixelCount)

end Tile

end Tessera
