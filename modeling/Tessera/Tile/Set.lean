import Tessera.Image
import Tessera.Tile.Basic
import Tessera.Tiling
/-!
# Sets of tiles

The tiles of an image in order (`extract_tiles`), with two flat views: an entry for every distinct colour of every
tile, and a sample for every pixel that is not reserved, both tile by tile.
-/

namespace Tessera

/-- One colour of one tile, with its number of pixels. -/
structure Entry where
  color : Rgb UInt8
  count : Nat
  tile : Nat
deriving Repr, Inhabited

/-- One pixel to learn from. -/
structure Sample where
  color : Rgb UInt8
  tile : Nat
deriving Repr, Inhabited

/-- The tiles of an image. -/
structure TileSet where
  rows : Nat
  cols : Nat
  tileWidth : Nat
  tileHeight : Nat
  tiles : List Tile
  samples : Array Sample
deriving Inhabited

namespace TileSet

def tileEntries (t : Tile) : List Entry := t.histogram.map fun (c, n) => ⟨c, n, t.index⟩

def entries (ts : TileSet) : List Entry := ts.tiles.flatMap tileEntries

/-- The position of the first entry of a tile (`entry_slice`). -/
def entryStart (ts : TileSet) (t : Nat) : Nat := total ((ts.tiles.take t).map fun u => u.histogram.length)

/-- The pixels that count (`total_weight`). -/
def totalWeight (ts : TileSet) : Nat := total (ts.tiles.map Tile.pixelCount)

/-- The colours of a tile's cells that are kept. -/
def kept (cells : List (Rgb UInt8 × Bool)) : List (Rgb UInt8) :=
  (cells.filter fun (_, reserved) => !reserved).map Prod.fst

/-- The tile of the cells at a position in the grid. -/
def makeTile (cols tileWidth tileHeight index : Nat) (cells : List (Rgb UInt8 × Bool)) : Tile where
  index
  x := index % cols * tileWidth
  y := index / cols * tileHeight
  width := tileWidth
  height := tileHeight
  histogram := Histogram.ofList (kept cells)

/-- The tiles of a grid of cells, given tile by tile; a cell says whether it is reserved. -/
def ofBlocks (rows cols tileWidth tileHeight : Nat) (blocks : List (List (Rgb UInt8 × Bool))) : TileSet where
  rows
  cols
  tileWidth
  tileHeight
  tiles := blocks.zipIdx.map fun (cells, i) => makeTile cols tileWidth tileHeight i cells
  samples := (blocks.zipIdx.flatMap fun (cells, i) => (kept cells).map fun c => ⟨c, i⟩).toArray

/-- The tiles of an image, without its reserved pixels (`extract_tiles`). -/
def extract {height width : Nat} (t : Tiling height width) (colors : Raster (Rgb UInt8) height width)
    (reserved : Raster Bool height width) : TileSet :=
  ofBlocks t.rows t.cols t.tileWidth t.tileHeight
    (t.blocks (.ofFn fun y x => (colors.get y x, reserved.get y x))).toLists

/-- The reserved cells by a mask of any size. The mask is cut into tiles of the same size on its own, and has to
make as many of them. -/
def maskOf {height width : Nat} (t : Tiling height width) (h w : Nat) (mask : List (List Bool)) :
    Result (Raster Bool height width) :=
  match (Raster.ofLists? mask : Option (Raster Bool h w)), Tiling.ofSizes? h w t.tileWidth t.tileHeight with
  | some m, some u =>
    match (Raster.ofLists? (u.blocks m).toLists : Option (Raster Bool t.tiles t.area)) with
    | some blocks => pure (t.unblocks blocks)
    | none => refuse .position
  | _, _ => refuse .shape

end TileSet

end Tessera
