import Tessera.Picture.Basic
/-!
# Bitmap files

The bytes of uncompressed bitmap files. Indices of one, four or eight bits are read with their table, colours of 24 or
32 bits without alpha. Rows stand from the bottom up, padded to whole words; a negative height turns them round.
Pictures with a table are written with eight bits for each pixel.
-/

namespace Tessera.Bitmap

/-- A number of `n` bytes at an offset, the lowest byte first. -/
def numberAt (bytes : ByteArray) (offset : Nat) : Nat → Nat
  | 0 => 0
  | n + 1 => (bytes[offset]?.getD 0).toNat + 256 * numberAt bytes (offset + 1) n

/-- A number as `n` bytes, the lowest byte first. -/
def numberBytes : Nat → Nat → List UInt8
  | 0, _ => []
  | n + 1, v => v.toUInt8 :: numberBytes n (v / 256)

def rowSize (bits width : Nat) : Nat := (bits * width + 31) / 32 * 4

/-- Where things stand in a file. -/
structure Layout where
  data : Nat
  table : Nat
  entries : Nat
  width : Nat
  height : Nat
  isTopDown : Bool
  bits : Nat

/-- The layout of a file, when it is one that can be read. -/
def layout? (bytes : ByteArray) : Option Layout :=
  let size := numberAt bytes 14 4
  let rawHeight := numberAt bytes 22 4
  let isTopDown := decide (Nat.pow 2 31 ≤ rawHeight)
  let l : Layout := {
    data := numberAt bytes 10 4
    table := 14 + size
    entries := if numberAt bytes 46 4 = 0 then Nat.pow 2 (numberAt bytes 28 2) else numberAt bytes 46 4
    width := numberAt bytes 18 4
    height := if isTopDown then Nat.pow 2 32 - rawHeight else rawHeight
    isTopDown
    bits := numberAt bytes 28 2 }
  if bytes[0]? = some 0x42 ∧ bytes[1]? = some 0x4d ∧ 40 ≤ size ∧ numberAt bytes 30 4 = 0 ∧
      [1, 4, 8, 24, 32].contains l.bits ∧ 0 < l.width ∧ 0 < l.height ∧
      l.data + rowSize l.bits l.width * l.height ≤ bytes.size then some l
  else none

def colorAt (bytes : ByteArray) (offset : Nat) : Rgb UInt8 :=
  let byte (i : Nat) := bytes[offset + i]?.getD 0
  ⟨byte 2, byte 1, byte 0⟩

/-- The offset of a row, counted from the top. -/
def Layout.rowStart (l : Layout) (y : Nat) : Nat :=
  l.data + rowSize l.bits l.width * (if l.isTopDown then y else l.height - 1 - y)

def Layout.indexAt (l : Layout) (bytes : ByteArray) (y x : Nat) : UInt8 :=
  let bit := x * l.bits
  let byte := (bytes[l.rowStart y + bit / 8]?.getD 0).toNat
  (byte / Nat.pow 2 (8 - l.bits - bit % 8) % Nat.pow 2 l.bits).toUInt8

def decode? (bytes : ByteArray) : Option Picture := do
  let l ← layout? bytes
  let grid {β : Type} (f : Nat → Nat → β) := (List.range l.height).map fun y => (List.range l.width).map (f y)
  if l.bits ≤ 8 then
    let table := (List.range (min 256 l.entries)).map fun i => colorAt bytes (l.table + 4 * i)
    pure (.indexed (grid (l.indexAt bytes)) (Picture.tableOf table))
  else pure (.full .color (grid fun y x => ⟨colorAt bytes (l.rowStart y + l.bits / 8 * x), 255⟩))

def tableEntries : Nat := 256

/-- The bytes before the pixels of a file with a table. -/
def header (width height : Nat) : List UInt8 :=
  let start := 54 + 4 * tableEntries
  let body := rowSize 8 width * height
  [0x42, 0x4d] ++ numberBytes 4 (start + body) ++ numberBytes 4 0 ++ numberBytes 4 start ++ numberBytes 4 40 ++
    numberBytes 4 width ++ numberBytes 4 height ++ numberBytes 2 1 ++ numberBytes 2 8 ++ numberBytes 4 0 ++
    numberBytes 4 body ++ numberBytes 4 0 ++ numberBytes 4 0 ++ numberBytes 4 tableEntries ++
    numberBytes 4 tableEntries

def tableBytes (table : List Pixel) : List UInt8 :=
  (List.range tableEntries).flatMap fun i =>
    let c := (table[i]?.getD Pixel.black).color
    [c.b, c.g, c.r, 0]

def encode (indices : List (List UInt8)) (table : List Pixel) : List UInt8 :=
  let width := (indices.head?.map List.length).getD 0
  let row (r : List UInt8) := r ++ List.replicate (rowSize 8 width - width) 0
  header width indices.length ++ tableBytes table ++ indices.reverse.flatMap row

end Tessera.Bitmap
