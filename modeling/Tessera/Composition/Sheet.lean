import Tessera.Picture.Save
import Tessera.Tensor.Index
import Tessera.Tile.Basic
/-!
# Sheets

A sheet is a composition as it is handed in: arrays of palettes and indices that need not fit together, and tile sizes and
a transparent index of any kind. Nothing is checked before it is used. Palette numbers and colour numbers are joined to one
shape, negative ones count from the end, and sums wrap around in words of 32 bits. A tile size may be a list, with a size
for each tile of a row or a column.
-/

namespace Tessera

/-- Arrays of colours and indices, with the sizes of tiles. -/
structure Sheet where
  palettes : Tensor UInt8
  tilePalettes : Tensor Int
  colorIndices : Tensor Int
  tileWidth : Value
  tileHeight : Value
  transparentIndex : Value

namespace Sheet

/-- The bound of words of 32 bits with a sign. -/
def wordBound : Int := 0x80000000

def indexOf (v : Value) : Result Int := v.within (-wordBound) wordBound

/-- A number brought into the range of words. -/
def wrap (n : Int) : Int := (n + wordBound) % (2 * wordBound) - wordBound

def ofValues (palettes tilePalettes colorIndices tileWidth tileHeight transparentIndex : Value) : Result Sheet := do
  pure {
    palettes := ← Tensor.ofValue Buffer.byteOf palettes
    tilePalettes := ← Tensor.ofValue indexOf tilePalettes
    colorIndices := ← Tensor.ofValue indexOf colorIndices
    tileWidth, tileHeight, transparentIndex }

/-! ## Sizes -/

/-- The length of an array along a dimension. -/
def lengthAlong {β : Type} (t : Tensor β) (axis : Nat) : Result Nat := (t.shape[axis]?).elim (refuse .position) pure

def count (s : Sheet) : Result Nat := lengthAlong s.palettes 0

def slots (s : Sheet) : Result Nat := lengthAlong s.palettes 1

def tableSize (s : Sheet) : Result Nat := do pure ((← s.count) * (← s.slots))

/-- Whether a byte can index all colours (`fits_indexed`). -/
def fitsIndexed (s : Sheet) : Result Bool := do pure (decide ((← s.tableSize) ≤ Composition.maxTable))

def size (s : Sheet) : Result (Nat × Nat) := do
  let width ← lengthAlong s.colorIndices 1
  pure (width, ← lengthAlong s.colorIndices 0)

/-! ## Joining palettes and colours -/

/-- How often the pieces of an array are repeated: all as often, or each as often as a list says. -/
def times (v : Value) : Result (Tensor Int) := do
  let t ← Tensor.ofValue pure v
  if 1 < t.rank then refuse .shape
  else pure ⟨t.shape, ← t.data.mapM (Value.within (-Value.wordLimit) Value.wordLimit)⟩

/-- The repetitions of each of `length` pieces. -/
def timesEach (length : Nat) (t : Tensor Int) : Result (List Nat) := do
  let each ← match t.data.toList with
    | [n] => pure (List.replicate length n)
    | ns => if ns.length = length then pure ns else refuse .shape
  if each.any (· < 0) then refuse .negative else pure (each.map Int.toNat)

/-- An array whose pieces along a dimension are repeated. -/
def repeated {β : Type} (t : Tensor β) (n : Value) (axis : Nat) : Result (Tensor β) := do
  let n ← times n
  match t.shape[axis]? with
  | none => refuse .axis
  | some length =>
    let each ← timesEach length n
    let outer := Tensor.cells (t.shape.take axis)
    let inner := Tensor.cells (t.shape.drop (axis + 1))
    let shape := t.shape.set axis (total each)
    Tensor.checkCount (Tensor.cells shape)
    let pieces := (Tensor.pieces inner (outer * length) t.data.toList).zip (List.replicate outer each).flatten
    pure ⟨shape, (pieces.flatMap fun (piece, k) => (List.replicate k piece).flatten).toArray⟩

/-- The palette number of every pixel (`palette_index_map`). -/
def paletteMap (s : Sheet) : Result (Tensor Int) := do
  let rows ← repeated s.tilePalettes s.tileHeight 0
  repeated rows s.tileWidth 1

/-- The number of every pixel's colour among all colours (`global_indices`). -/
def flatIndices (s : Sheet) : Result (Tensor Int) := do
  let map ← s.paletteMap
  let slots ← s.slots
  match Tensor.zipWith? (fun p k : Int => wrap (wrap (p * slots) + k)) map s.colorIndices with
  | some t => pure t
  | none => refuse .shape

/-- All colours in one table, as bytes (`flat_palette`). -/
def flatPalette (s : Sheet) : Result (Tensor UInt8) :=
  let n := s.palettes.data.size
  if n % 3 = 0 then pure ⟨[n / 3, 3], s.palettes.data⟩ else refuse .shape

/-- The cells of the palettes at a palette number and a colour number. -/
def cellsAt (s : Sheet) (count slots : Nat) (p k : Int) : Result (List UInt8) := do
  let p ← position count p
  let k ← position slots k
  let width := Tensor.cells (s.palettes.shape.drop 2)
  pure ((List.range width).map fun i => s.palettes.data[(p * slots + k) * width + i]?.getD 0)

/-- The colours of the pixels (`QuantizeResult.render`). -/
def render (s : Sheet) : Result (Tensor UInt8) := do
  let map ← s.paletteMap
  match s.palettes.shape with
  | count :: slots :: tail =>
    match Tensor.zipWith? (fun p k : Int => (p, k)) map s.colorIndices with
    | none => refuse .position
    | some pairs =>
      let cells ← pairs.data.toList.mapM fun (p, k) => s.cellsAt count slots p k
      pure ⟨pairs.shape ++ tail, cells.flatten.toArray⟩
  | _ => refuse .position

def isNumber (v : Value) (k : Int) : Bool :=
  match Number.ofValue v with
  | .ok n => n.eq (.whole k)
  | .error _ => false

/-- Which pixels have the transparent colour number. A list has one for each pixel of a row; a list of texts has none. -/
def clearPixels (s : Sheet) : Result (Tensor Bool) := do
  let clear ← Tensor.ofValue pure s.transparentIndex
  match Tensor.zipWith? (fun (k : Int) v => isNumber v k) s.colorIndices clear with
  | none => refuse .shape
  | some t => pure (if Kind.ofTensor clear = .text then t.map fun _ => false else t)

def choiceOf (t : Tensor Bool) : Index := if t.rank = 0 then .whole (t.data.getD 0 false) else .keep t

/-- The pixels with their alpha (`render_rgba`). -/
def renderPixels (s : Sheet) : Result (Tensor UInt8) := do
  let r ← s.render
  let outer := r.shape.take 2
  match r.writtenTo? (outer ++ [3]) with
  | none => refuse .shape
  | some rgb =>
    let solid := ((Tensor.pieces 3 (Tensor.cells outer) rgb.data.toList).flatMap (· ++ [255])).toArray
    let shape := outer ++ [4]
    if s.transparentIndex.isNull then pure ⟨shape, solid⟩
    else
      let places ← Index.across shape (choiceOf (← s.clearPixels)) (.one 3)
      pure ⟨shape, places.data.foldl (fun data i => data.setIfInBounds i 0) solid⟩

/-! ## Saving -/

/-- The indices into the table of all colours, as bytes row by row (`indexed_image`). -/
def byteIndices (s : Sheet) : Result (List (List UInt8)) := do
  if ← s.fitsIndexed then
    let (width, height) ← s.size
    let t ← s.flatIndices
    if t.data.size < width * height then refuse .shape
    else
      let _ ← s.flatPalette
      pure (Picture.cut width height (t.data.toList.map fun n => (n % 256).toNat.toUInt8))
  else .error (.tooManyColours (← s.tableSize))

def clearSlot (s : Sheet) : Result Int := if s.transparentIndex.isTrue then s.transparentIndex.integer else pure 0

/-- The places in the table of all colours that are transparent (`_transparency_table`). -/
def clearPlaces (s : Sheet) : Result (List Nat) := do
  let size ← s.tableSize
  let slots ← s.slots
  (List.range (← s.count)).mapM fun (p : Nat) => do position size ((p * slots : Nat) + (← s.clearSlot))

def fullTable (s : Sheet) : List Pixel := (Rgb.ofChannels s.palettes.data.toList).map fun c => ⟨c, 255⟩

/-- The table that goes to a file of some name. -/
def tableFor (s : Sheet) (p : Path) : Result (List Pixel) := do
  if p.hasSuffix alphaSuffix ∧ ¬ s.transparentIndex.isNull then
    let places ← s.clearPlaces
    pure (s.fullTable.zipIdx.map fun (c, i) => if places.contains i then { c with alpha := 0 } else c)
  else pure s.fullTable

def picture (s : Sheet) : Result Picture := do
  let t ← s.renderPixels
  Picture.ofBuffer ⟨true, t.shape, t.data⟩

/-- Saves a sheet to a disk (`save_indexed_image`). The answer has the path that is written. -/
def save (s : Sheet) (d : Disk) (p : Path) : Result (Disk × Path) := do
  let (p, picture) ←
    if ← s.fitsIndexed then do pure (p, Picture.indexed (← s.byteIndices) (← s.tableFor p))
    else do pure (Composition.alphaPath p, ← s.picture)
  let (d, _) ← d.writePicture p picture .null .null
  pure (d, p)

end Sheet

end Tessera
