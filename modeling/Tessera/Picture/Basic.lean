import Tessera.Buffer
/-!
# Pictures

A picture is the content of a picture file. It holds its pixels one by one, or it holds indices into a table of
pixels, or only bits. `pixels` is what a reader of the file sees: every index looked up in the table.
-/

namespace Tessera

/-- What is kept of pixels that stand one by one. -/
inductive Channels where
  | grey
  | greyAlpha
  | color
  | colorAlpha
deriving DecidableEq, Repr, Inhabited

/-- The content of a picture file, row by row. -/
inductive Picture where
  /-- Indices into a table. -/
  | indexed (indices : List (List UInt8)) (table : List Pixel)
  /-- One pixel after the other. -/
  | full (channels : Channels) (rows : List (List Pixel))
  /-- White where a bit is set. -/
  | bits (rows : List (List Bool))

/-- The pixel of an index that the table does not hold. -/
def Pixel.black : Pixel := ⟨⟨0, 0, 0⟩, 255⟩

def Pixel.grey (v : UInt8) : Pixel := ⟨⟨v, v, v⟩, 255⟩

def Pixel.solid (p : Pixel) : Pixel := { p with alpha := 255 }

def Channels.ofCount? : Nat → Option Channels
  | 1 => some grey
  | 2 => some greyAlpha
  | 3 => some color
  | 4 => some colorAlpha
  | _ => none

namespace Picture

def lookup (table : List Pixel) (k : UInt8) : Pixel := table[k.toNat]?.getD Pixel.black

def pixels : Picture → List (List Pixel)
  | indexed indices table => indices.map fun row => row.map (lookup table)
  | full _ rows => rows
  | bits rows => rows.map fun row => row.map fun b => Pixel.grey (if b then 255 else 0)

def height (p : Picture) : Nat := p.pixels.length

def width (p : Picture) : Nat := (p.pixels.head?.map List.length).getD 0

/-- A row of numbers cut into rows of `width`. -/
def cut {β : Type} (width : Nat) : Nat → List β → List (List β)
  | 0, _ => []
  | n + 1, xs => xs.take width :: cut width n (xs.drop width)

/-- The pixel of one to four channels: grey, grey with alpha, colour, colour with alpha. -/
def ofChannels : List UInt8 → Pixel
  | [v] => Pixel.grey v
  | [v, a] => ⟨⟨v, v, v⟩, a⟩
  | [r, g, b] => ⟨⟨r, g, b⟩, 255⟩
  | [r, g, b, a] => ⟨⟨r, g, b⟩, a⟩
  | _ => Pixel.black

/-- The channels of a picture, unless it has a table. -/
def channels? : Picture → Option Channels
  | indexed _ _ => none
  | full channels _ => some channels
  | bits _ => some .grey

def isEmpty (p : Picture) : Bool := p.pixels.all List.isEmpty

/-- The bytes of the pixels of a buffer, row by row. -/
def cellRows (b : Buffer) (height width channels : Nat) : List (List (List UInt8)) :=
  cut width height (cut channels (height * width) b.data.toList)

/-- The indices in the first channel of a buffer. -/
def indicesOf (b : Buffer) : Result (List (List UInt8)) :=
  match b.shape with
  | [height, width, channels] =>
    pure ((cellRows b height width channels).map fun row => row.map fun cell => cell.headD 0)
  | _ => refuse .position

/-- The picture of a buffer with one to four channels. -/
def ofBuffer (b : Buffer) : Result Picture :=
  match b.shape with
  | [height, width, n] =>
    match Channels.ofCount? n with
    | some channels => pure (full channels ((cellRows b height width n).map fun row => row.map ofChannels))
    | none => refuse .unknown
  | _ => refuse .position

def maxTable : Nat := 256

def tableOf (colors : List (Rgb UInt8)) : List Pixel := colors.map fun c => ⟨c, 255⟩

def toBuffer (rows : List (List Pixel)) : Buffer where
  isByte := true
  shape := [rows.length, (rows.head?.map List.length).getD 0, 4]
  data := (rows.flatten.flatMap fun p => p.color.toList ++ [p.alpha]).toArray

end Picture

end Tessera
