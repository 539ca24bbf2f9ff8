import Tessera.Number
import Tessera.Picture.Boxes
import Tessera.Picture.Format
import Tessera.Picture.Orientation
/-!
# Pictures in files

What becomes of a picture in a file. `store` is the picture that is in the file: one format packs the indices into as few
bits as the table needs, one leaves out the colours that are not used, some drop alpha. One index of a table may be made
transparent by a value of any kind. `reread` is the picture that a reader makes of it: some readers take a table of greys
for none.
-/

namespace Tessera.Format

/-! ## Packing -/

/-- What is left of an index in the bits that a table of some size needs: one, two, four or eight. -/
def pack (colors : Nat) (k : UInt8) : UInt8 :=
  if colors ≤ 2 then (if k = 0 then 0 else 1)
  else if colors ≤ 4 then k % 4
  else if colors ≤ 16 then k % 16
  else k

/-- The indices of a table in as few bits as it needs. -/
def packed (indices : List (List UInt8)) (table : List Pixel) : List (List UInt8) :=
  indices.map fun row => row.map (pack table.length)

/-! ## Leaving out colours -/

/-- The least power of two that is at least `n`. -/
def powerAbove (n : Nat) : Nat := if n ≤ 1 then 1 else Nat.pow 2 (Nat.log2 (n - 1) + 1)

/-- The indices that are used, the least first. -/
def used (indices : List (List UInt8)) : List UInt8 :=
  ((List.range 256).map Nat.toUInt8).filter fun k => indices.any fun row => row.contains k

/-- Whether the table becomes shorter, or has to be put in order, without the colours that are not used. -/
def isTrimmable (colors : Nat) (ks : List UInt8) : Bool :=
  let room := powerAbove colors
  (ks.getLast?.any fun k => decide (ks.length ≤ k.toNat)) || (decide (ks.length ≤ room / 2) && decide (2 < room))

/-- A table filled up to a power of two: at least four, but two for a table without colours. -/
def fill (table : List Pixel) : List Pixel :=
  let room := if table.isEmpty then 2 else max 4 (powerAbove table.length)
  table ++ List.replicate (room - table.length) Pixel.black

/-- The indices and the table without the colours that are not used. -/
def trim (indices : List (List UInt8)) (table : List Pixel) : List (List UInt8) × List Pixel :=
  let ks := used indices
  if isTrimmable table.length ks then
    (indices.map fun row => row.map fun k => (ks.idxOf k).toUInt8, ks.filterMap fun k => table[k.toNat]?)
  else (indices, table)

/-! ## Greys -/

/-- Whether a table is black, or black and white. -/
def isTwoTone (table : List Pixel) : Bool :=
  let colors := table.map Pixel.color
  colors == [⟨0, 0, 0⟩] || colors == [⟨0, 0, 0⟩, ⟨255, 255, 255⟩]

def isRamp (table : List Pixel) : Bool :=
  table.zipIdx.all fun (p, k) => p.color == ⟨k.toUInt8, k.toUInt8, k.toUInt8⟩

def isGrey (table : List Pixel) : Bool := table.all fun p => p.color == ⟨p.color.r, p.color.r, p.color.r⟩

/-! ## Transparent indices -/

/-- The transparent index in a file that packs its indices: the nearest one to a number. -/
def nearestIndex (v : Value) : Result (Option Nat) :=
  match Number.ofValue v with
  | .ok n =>
    match Number.max (.whole 0) (Number.min (.whole 255) n) with
    | .whole k => pure (some k.toNat)
    | .real _ => refuse .kind
  | .error _ => if v.isTrue then refuse .kind else pure none

/-- The transparent index in a file that keeps its indices: the lowest byte of an integer. -/
def byteIndex : Value → Result (Option Nat)
  | .null => pure none
  | .int n => pure (some (n % 256).toNat)
  | .bool b => pure (some b.toNat)
  | v => if v.isTrue then refuse .kind else pure (some 0)

/-- The transparent index in a file that leaves out the colours that are not used: the place of a number among those
that are. -/
def usedIndex? (ks : List UInt8) (v : Value) : Option Nat :=
  match Number.ofValue v with
  | .ok n => ks.findIdx? fun k => n.eq (.whole k.toNat)
  | .error _ => none

/-- A table with one transparent index. One that the table does not hold is added; behind greys in order there are
greys, and otherwise black. -/
def clearAt (table : List Pixel) : Option Nat → List Pixel
  | none => table
  | some k =>
    let added := (List.range' table.length (k + 1 - table.length)).map fun i =>
      if isRamp table then Pixel.grey i.toUInt8 else Pixel.black
    (table ++ added).modify k fun p => { p with alpha := 0 }

/-! ## Writing -/

def solid : Picture → Picture
  | .indexed indices table => .indexed indices (table.map Pixel.solid)
  | .full .colorAlpha rows => .full .color (rows.map fun row => row.map Pixel.solid)
  | .full .greyAlpha rows => .full .grey (rows.map fun row => row.map Pixel.solid)
  | p => p

/-- The picture of a table that is in a file that packs. -/
def packedClear (indices : List (List UInt8)) (table : List Pixel) (clear : Value) : Result Picture := do
  let clear? := (← nearestIndex clear).filter fun k => decide (k < table.length)
  pure (.indexed (packed indices table) (clearAt table clear?))

/-- The picture of a table that is in a file that leaves out colours. -/
def trimmedClear (indices : List (List UInt8)) (table : List Pixel) (clear : Value) : Result Picture := do
  let ks := used indices
  let clear? ← if isTrimmable table.length ks then pure (usedIndex? ks clear) else byteIndex clear
  let (indices, table) := trim indices table
  pure (.indexed indices (clearAt (fill table) clear?))

/-- The picture that is in a file, when nothing is made transparent. -/
def kept (f : Format) (p : Picture) : Picture :=
  match f, p with
  | ico, .indexed indices table => solid (.indexed (packed indices table) table)
  | gif, .full .colorAlpha rows => .full .color (Boxes.mergeRows rows)
  | gif, p => solid p
  | bmp, p => solid p
  | ppm, p => solid p
  | blp, p => .full .color (solid p).pixels
  | _, .indexed indices table => solid (.indexed indices table)
  | _, p => p

/-- The picture that is in a file. Some formats can make one index of a table transparent. -/
def keptClear (f : Format) (p : Picture) (clear : Value) : Result Picture :=
  match f, p with
  | png, .indexed indices table => packedClear indices table clear
  | gif, .indexed indices table => trimmedClear indices table clear
  | f, p => pure (f.kept p)

/-- Writes a picture to a file of some name. There has to be a pixel. -/
def store (f : Format) (n : FileName) (p : Picture) (clear : Value) : Result Picture :=
  if ¬ f.holds p.channels? then refuse f.refusal
  else if ¬ f.canName n then refuse .letters
  else if p.isEmpty then refuse .format
  else f.keptClear p clear

/-! ## Reading -/

/-- The bit of a row of bytes at a place, the highest of a byte first. -/
def bitAt (row : List UInt8) (x : Nat) : Bool := (row.getD (x / 8) 0).toNat.testBit (7 - x % 8)

def bitsOf (indices : List (List UInt8)) : Picture :=
  .bits (indices.map fun row => (List.range row.length).map (bitAt row))

def greysOf (indices : List (List UInt8)) : Picture := .full .grey (indices.map fun row => row.map Pixel.grey)

/-- Indices taken for greys, with the alpha that a table has for them. -/
def clearGreysOf (indices : List (List UInt8)) (table : List Pixel) : Picture :=
  .full .grey (indices.map fun row => row.map fun k => { Pixel.grey k with alpha := (Picture.lookup table k).alpha })

/-- The picture that a reader makes of what is in a file. -/
def reread (f : Format) (p : Picture) : Picture :=
  match f, p with
  | bmp, .indexed indices table =>
    if isTwoTone table then bitsOf indices
    else if isRamp table ∧ table.length ≠ 2 then greysOf indices
    else p
  | gif, .indexed indices table => if isRamp table then clearGreysOf indices table else p
  | pcx, .indexed indices table => if isRamp table ∧ table.length = Picture.maxTable then greysOf indices else p
  | im, .indexed indices table => if isGrey table then greysOf indices else p
  | _, _ => p

def keptOrientation (f : Format) (orientation : Value) : Result Nat :=
  if f.isOriented then Orientation.ofValue orientation else pure 1

/-- What a reader of a file finds, if it can be read. -/
def scan? (f : Format) (p : Picture) (orientation : Nat) : Option Scan :=
  if f.isReadable then some ⟨f.reread p, orientation⟩ else none

end Tessera.Format
