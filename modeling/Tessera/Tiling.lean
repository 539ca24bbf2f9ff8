import Tessera.Number
import Tessera.Raster
/-!
# Tilings

A tiling cuts a rectangle into tiles of one size, numbered row by row. `blocks` lists the cells tile by tile
(`to_tile_blocks`), `unblocks` puts them back (`from_tile_blocks`). Each is a rearrangement of cells: `blocks` takes
its cell from `sourceRow` and `sourceColumn`, `unblocks` from `blockIndex` and `blockOffset`.
-/

namespace Tessera

/-- A pair of digits in base `b` stays below `a * b` when the first digit is below `a`. -/
theorem digit_pair_lt {a b i j : Nat} (hi : i < a) (hj : j < b) : i * b + j < a * b :=
  calc i * b + j < i * b + b := by omega
    _ = (i + 1) * b := by rw [Nat.add_mul, Nat.one_mul]
    _ ≤ a * b := Nat.mul_le_mul_right b hi

/-- A division of a rectangle into equal tiles. -/
structure Tiling (height width : Nat) where
  tileWidth : Nat
  tileHeight : Nat
  rows : Nat
  cols : Nat
  tileWidth_pos : 0 < tileWidth
  tileHeight_pos : 0 < tileHeight
  rows_mul : rows * tileHeight = height
  cols_mul : cols * tileWidth = width

namespace Tiling

variable {height width : Nat} {β : Type}

abbrev tiles (t : Tiling height width) : Nat := t.rows * t.cols

abbrev area (t : Tiling height width) : Nat := t.tileHeight * t.tileWidth

/-- The row of the cell at an offset of a tile. -/
def sourceRow (t : Tiling height width) (block : Fin t.tiles) (offset : Fin t.area) : Fin height :=
  ⟨block / t.cols * t.tileHeight + offset / t.tileWidth, by
    have h1 : block.val / t.cols < t.rows :=
      Nat.div_lt_of_lt_mul (by rw [Nat.mul_comm]; exact block.isLt)
    have h2 : offset.val / t.tileWidth < t.tileHeight :=
      Nat.div_lt_of_lt_mul (by rw [Nat.mul_comm]; exact offset.isLt)
    exact Nat.lt_of_lt_of_eq (digit_pair_lt h1 h2) t.rows_mul⟩

/-- The column of the cell at an offset of a tile. -/
def sourceColumn (t : Tiling height width) (block : Fin t.tiles) (offset : Fin t.area) : Fin width :=
  ⟨block % t.cols * t.tileWidth + offset % t.tileWidth, by
    have hc : 0 < t.cols := Nat.pos_of_mul_pos_left (Nat.zero_lt_of_lt block.isLt)
    have h1 : block.val % t.cols < t.cols := Nat.mod_lt _ hc
    have h2 : offset.val % t.tileWidth < t.tileWidth := Nat.mod_lt _ t.tileWidth_pos
    exact Nat.lt_of_lt_of_eq (digit_pair_lt h1 h2) t.cols_mul⟩

def blockIndex (t : Tiling height width) (y : Fin height) (x : Fin width) : Fin t.tiles :=
  ⟨y / t.tileHeight * t.cols + x / t.tileWidth, by
    have h1 : y.val / t.tileHeight < t.rows :=
      Nat.div_lt_of_lt_mul (by rw [Nat.mul_comm, t.rows_mul]; exact y.isLt)
    have h2 : x.val / t.tileWidth < t.cols :=
      Nat.div_lt_of_lt_mul (by rw [Nat.mul_comm, t.cols_mul]; exact x.isLt)
    exact digit_pair_lt h1 h2⟩

def blockOffset (t : Tiling height width) (y : Fin height) (x : Fin width) : Fin t.area :=
  ⟨y % t.tileHeight * t.tileWidth + x % t.tileWidth,
    digit_pair_lt (Nat.mod_lt _ t.tileHeight_pos) (Nat.mod_lt _ t.tileWidth_pos)⟩

/-- The cells tile by tile (`to_tile_blocks`). -/
def blocks (t : Tiling height width) (r : Raster β height width) : Raster β t.tiles t.area :=
  .ofFn fun b o => r.get (t.sourceRow b o) (t.sourceColumn b o)

/-- The cells back in their places (`from_tile_blocks`). -/
def unblocks (t : Tiling height width) (r : Raster β t.tiles t.area) : Raster β height width :=
  .ofFn fun y x => r.get (t.blockIndex y x) (t.blockOffset y x)

/-- The tiling by a tile size that divides the rectangle. -/
def ofSizes? (height width tileWidth tileHeight : Nat) : Option (Tiling height width) :=
  if h : 0 < tileWidth ∧ 0 < tileHeight ∧ height / tileHeight * tileHeight = height ∧
      width / tileWidth * tileWidth = width then
    some {
      tileWidth
      tileHeight
      rows := height / tileHeight
      cols := width / tileWidth
      tileWidth_pos := h.1
      tileHeight_pos := h.2.1
      rows_mul := h.2.2.1
      cols_mul := h.2.2.2 }
  else none

def maxSize : Int := 32

def checkSize (name : String) (size : Int) : Result Unit :=
  if 1 ≤ size ∧ size ≤ maxSize then pure () else .error (.outside name (.int size) (.int 1) (.int maxSize))

/-- Checks that tiles are in range and divide the image (`check_tile_geometry`). -/
def check (width height tileWidth tileHeight : Int) : Result Unit := do
  checkSize "tile_width" tileWidth
  checkSize "tile_height" tileHeight
  if width ≤ 0 ∨ height ≤ 0 then .error (.emptyImage (.int width) (.int height))
  else if width % tileWidth ≠ 0 ∨ height % tileHeight ≠ 0 then
    .error (.unevenTiles (.int width) (.int height) (.int tileWidth) (.int tileHeight))
  else pure ()

/-- Checks one side of a tile, which may be a value of any kind. -/
def checkGivenSize (name : String) (size : Value) : Result Unit := do
  let n ← size.integer
  if 1 ≤ n ∧ n ≤ maxSize then pure () else reject (.outside name size (.int 1) (.int maxSize))

/-- Whether a side of the image is not positive. -/
def isEmptySide (side : Value) : Result Bool := do pure ((← Number.ofValue side).le (.whole 0))

/-- Whether a side of the image is no multiple of a side of the tiles. -/
def isUneven (side size : Value) : Result Bool := do
  let left ← (← Number.ofValue side).mod (← Number.ofValue size)
  pure left.isNonzero

/-- Whether one of two answers is yes; the second is asked only when the first is no. -/
def either (a b : Result Bool) : Result Bool := do if ← a then pure true else b

/-- Checks values of any kind as `check` checks integers. -/
def checkGiven (width height tileWidth tileHeight : Value) : Result Unit := do
  checkGivenSize "tile_width" tileWidth
  checkGivenSize "tile_height" tileHeight
  if ← either (isEmptySide width) (isEmptySide height) then reject (.emptyImage width height)
  else if ← either (isUneven width tileWidth) (isUneven height tileHeight) then
    reject (.unevenTiles width height tileWidth tileHeight)
  else pure ()

/-- The tiling of an image, when the tile size passes the check. -/
def make (height width : Nat) (tileWidth tileHeight : Int) : Result (Tiling height width) := do
  check width height tileWidth tileHeight
  match ofSizes? height width tileWidth.toNat tileHeight.toNat with
  | some t => pure t
  | none => .error (.unevenTiles (.int width) (.int height) (.int tileWidth) (.int tileHeight))

end Tiling

end Tessera
