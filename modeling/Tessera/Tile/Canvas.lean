import Tessera.Buffer
import Tessera.Tile.Set
/-!
# Canvases

A canvas is what tiles are taken from and indices are put back into: the colours of an image, its reserved pixels
and the way it is cut into tiles.
-/

namespace Tessera

/-- The colours of an image, its reserved pixels and its tiling. -/
structure Canvas where
  height : Nat
  width : Nat
  tiling : Tiling height width
  work : Raster (Rgb UInt8) height width
  reserved : Raster Bool height width

namespace Canvas

def tiles (c : Canvas) : TileSet := TileSet.extract c.tiling c.work c.reserved

/-- The cells that a mask of bytes reserves: those where it is not zero. -/
def maskOf {height width : Nat} (t : Tiling height width) (mask : Tensor UInt8) : Result (Raster Bool height width) :=
  match mask.shape with
  | h :: w :: tail =>
    if Tensor.cells mask.shape = 0 then refuse .position
    else if h % t.tileHeight ≠ 0 ∨ w % t.tileWidth ≠ 0 then refuse .shape
    else if tail.isEmpty then TileSet.maskOf t h w (Tensor.pieces w h (mask.data.toList.map (· != 0)))
    else refuse .position
  | _ => refuse .shape

/-- The side of a tile that has passed its check. Only integers cut an array. -/
def wholeSide : Value → Result Nat
  | .int n => pure n.toNat
  | _ => refuse .kind

/-- Why cells of some size that are no colours make no samples: they cannot be told apart by threes, or there are too
few or too many of them. -/
def strange {β : Type} (size : Nat) : Result β := if size % 3 = 0 then refuse .position else refuse .shape

/-- The colours of a buffer that is taken as it is. -/
def colorsOf (b : Buffer) (height width : Nat) : Result (Raster (Rgb UInt8) height width) :=
  match b.shape with
  | [_, _] => if 3 < width then refuse .position else strange (height * width)
  | [_, _, channels] =>
    if channels < 3 then strange (height * width * channels)
    else pure ((b.pixels height width channels).map Pixel.color)
  | shape => strange (Tensor.cells shape.dropLast * min 3 (shape.getLast?.getD 0))

/-- A canvas from a buffer that is taken as it is, with a mask of reserved pixels or without. -/
def ofBuffer (b : Buffer) (tileWidth tileHeight : Value) (mask : Option (Tensor UInt8)) : Result Canvas :=
  match b.shape with
  | height :: width :: tail => do
    Tiling.checkGiven (.int width) (.int height) tileWidth tileHeight
    let th ← wholeSide tileHeight
    let tw ← wholeSide tileWidth
    let tiling ← Tiling.make height width tw th
    if tail.isEmpty ∧ min 3 width % tw ≠ 0 then refuse .shape else pure ()
    let reserved ← match mask with
      | none => pure (.ofFn fun _ _ => false)
      | some m => maskOf tiling m
    let work ← colorsOf b height width
    pure ⟨height, width, tiling, work, reserved⟩
  | _ => refuse .shape

end Canvas

end Tessera
