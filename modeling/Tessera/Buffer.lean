import Tessera.Image
import Tessera.Tensor
import Tessera.Tiling
/-!
# Buffers

A buffer is an array as it is handed in: bytes in some shape, and whether its elements are bytes at all. It may be given
by its bytes or by a colour that fills it. A buffer of rank three with three or four channels is an image. Buffers of
other shapes can still be cut into tiles, and can have reserved places.
-/

namespace Tessera

/-- An array of any shape. The data are meaningful for byte elements. -/
structure Buffer where
  isByte : Bool
  shape : List Nat
  data : Array UInt8
deriving Inhabited

namespace Buffer

def byteAt (b : Buffer) (i : Nat) : UInt8 := b.data[i]?.getD 0

def tensor (b : Buffer) : Tensor UInt8 := ⟨b.shape, b.data⟩

/-! ## Making buffers -/

/-- The length of a dimension, which has to be an integer. A negative one stands for whatever is left. -/
def lengthOf : Value → Result Int
  | .int n => pure n
  | _ => refuse .kind

/-- The lengths of a shape: a list of them, or a single one. -/
def lengths : Value → Result (List Int)
  | .list vs => vs.mapM lengthOf
  | v => do pure [← lengthOf v]

/-- The shape of `size` cells by lengths of which one may be left open. -/
def fitShape (size : Nat) (ns : List Int) : Result (List Nat) :=
  let known := Tensor.cells ((ns.filter (0 ≤ ·)).map Int.toNat)
  match ns.countP (· < 0) with
  | 0 => if known = size then pure (ns.map Int.toNat) else refuse .shape
  | 1 =>
    if known ≠ 0 ∧ size % known = 0 then pure (ns.map fun n => if n < 0 then size / known else n.toNat)
    else refuse .shape
  | _ => refuse .shape

def ofBytes (isByte : Bool) (shape : Value) (bytes : List UInt8) : Result Buffer := do
  let shape ← fitShape bytes.length (← lengths shape)
  pure ⟨isByte, shape, bytes.toArray⟩

def byteOf (v : Value) : Result UInt8 := do pure (← v.within 0 256).toNat.toUInt8

/-- The buffer of a shape that is filled with a number, or with numbers that are repeated. -/
def ofFill (isByte : Bool) (shape fill : Value) : Result Buffer := do
  let ns ← lengths shape
  if ns.any (· < 0) then refuse .shape
  else
    let cell ← Tensor.ofValue byteOf fill
    match cell.spreadTo? (ns.map Int.toNat) with
    | some t => pure ⟨isByte, t.shape, t.data⟩
    | none => refuse .shape

/-! ## Buffers as images -/

/-- The pixels of a buffer with at least three channels; without a fourth channel they have full alpha. -/
def pixels (b : Buffer) (height width channels : Nat) : Raster Pixel height width :=
  .ofFn fun y x =>
    let i := (y.val * width + x.val) * channels
    ⟨⟨b.byteAt i, b.byteAt (i + 1), b.byteAt (i + 2)⟩, if 4 ≤ channels then b.byteAt (i + 3) else 255⟩

/-- The image of a byte buffer of rank three with three or four channels (`coerce_to_rgba`). -/
def toImage (b : Buffer) : Result Image :=
  match b.isByte, b.shape with
  | true, [h, w, 3] => pure ⟨h, w, b.pixels h w 3⟩
  | true, [h, w, 4] => pure ⟨h, w, b.pixels h w 4⟩
  | _, _ => .error .pixelBuffer

/-! ## Buffers in tiles -/

/-- The cells of a buffer, each with all that stands behind the first two dimensions. -/
def cells (b : Buffer) (height width depth : Nat) : Raster (List UInt8) height width :=
  .ofFn fun y x => (List.range depth).map fun k => b.byteAt ((y.val * width + x.val) * depth + k)

def ofCells {height width : Nat} (r : Raster (List UInt8) height width) (tail : List Nat) : Buffer where
  isByte := true
  shape := height :: width :: tail
  data := r.toList.flatten.toArray

def hollow (shape : List Nat) : Buffer := ⟨true, shape, #[]⟩

/-- A buffer tile by tile, and the buffer that comes of putting the tiles back (`to_tile_blocks`, `from_tile_blocks`).
Without elements only the shapes count, and a rest that fills no tile is dropped. -/
def tileWise (b : Buffer) (tileWidth tileHeight : Int) : Result (Buffer × Buffer) :=
  match b.shape with
  | height :: width :: tail =>
    if tileHeight = 0 ∨ tileWidth = 0 then refuse .division
    else if 0 < tileWidth ∧ 0 < tileHeight ∧ Tensor.cells b.shape = 0 then
      let tw := tileWidth.toNat
      let th := tileHeight.toNat
      let rows := height / th
      let cols := width / tw
      if Tensor.cells (rows :: th :: cols :: tw :: tail) = 0 then
        pure (hollow (rows * cols :: th * tw :: tail), hollow (rows * th :: cols * tw :: tail))
      else refuse .shape
    else
      match Tiling.ofSizes? height width tileWidth.toNat tileHeight.toNat with
      | none => refuse .shape
      | some t =>
        let blocks := t.blocks (b.cells height width (Tensor.cells tail))
        pure (ofCells blocks tail, ofCells (t.unblocks blocks) tail)
  | _ => refuse .shape

/-- A side of a tile of any kind: only integers divide an array, and none divides by zero. -/
def sideOf (v : Value) : Result Int := do
  match v, ← Number.ofValue v with
  | .int n, _ => pure n
  | _, n => if n.isNonzero then refuse .kind else refuse .division

/-- A buffer tile by tile, with sides of any kind. -/
def tileWiseGiven (b : Buffer) (tileWidth tileHeight : Value) : Result (Buffer × Buffer) :=
  if b.shape.length < 2 then refuse .shape
  else do
    let height ← sideOf tileHeight
    if height = 0 then refuse .division else pure ()
    let width ← sideOf tileWidth
    b.tileWise width height

/-! ## Reserved places -/

/-- The first `n` of each lane along the last dimension. -/
def narrowed (b : Buffer) (n : Nat) : Tensor UInt8 :=
  let width := b.shape.getLast?.getD 0
  ⟨b.shape.dropLast ++ [min n width], (b.tensor.lanes.data.toList.flatMap fun lane => lane.take n).toArray⟩

/-- The places with little alpha, which is the fourth channel. -/
def faint (b : Buffer) : Result (Tensor Bool) := do
  let lanes := b.tensor.lanes
  if b.shape.getLast?.getD 0 < 4 then refuse .position
  else pure (lanes.map fun lane => decide (lane.getD 3 0 < Image.alphaThreshold))

/-- The places whose first three channels are those of a key, which is repeated where it is short. -/
def keyed (b : Buffer) (key : Value) : Result (Tensor Bool) := do
  let key ← Tensor.ofValue byteOf key
  match Tensor.zipWith? (fun x k : UInt8 => x == k) (b.narrowed 3) key with
  | some t => pure (t.lanes.map fun lane => lane.all id)
  | none => refuse .shape

/-- The reserved places of a buffer that is taken as it is, under a policy of any kind (`color_zero_mask`). A policy that is
none reserves nothing. -/
def reserved (b : Buffer) (policy key : Value) : Result (Tensor Bool) :=
  match b.shape with
  | h :: w :: _ =>
    match policy with
    | .zero .transparentAlpha => b.faint
    | .zero .transparentKey => b.keyed key
    | _ => pure ⟨[h, w], Array.replicate (h * w) false⟩
  | _ => refuse .shape

end Buffer

end Tessera
