import Tessera.Picture.Basic
/-!
# Graphics files with alpha

The bytes of a graphics file that keeps the alpha of every pixel. The rows are stored as they are, without
compression, in blocks whose length fits sixteen bits. Two checksums guard the data: a cyclic one over every chunk,
and a pair of sums over the stored bytes.
-/

namespace Tessera.Png

/-- A number as `n` bytes, the highest byte first. -/
def numberBytes (n v : Nat) : List UInt8 := (List.range n).reverse.map fun i => (v / Nat.pow 256 i).toUInt8

/-- Moves the cyclic checksum on by some bits. -/
def shift : Nat → UInt32 → UInt32
  | 0, c => c
  | n + 1, c => shift n (if c &&& 1 = 1 then (c >>> 1) ^^^ 0xedb88320 else c >>> 1)

def cyclic (bytes : List UInt8) : UInt32 :=
  ~~~ (bytes.foldl (fun c b => shift 8 (c ^^^ b.toUInt32)) 0xffffffff)

/-- The pair of sums of bytes, modulo the largest prime below 2^16. -/
def sums (bytes : List UInt8) : Nat :=
  let (a, b) := bytes.foldl (fun (a, b) x => ((a + x.toNat) % 65521, (b + a + x.toNat) % 65521)) (1, 0)
  b * 65536 + a

def chunk (name : String) (body : List UInt8) : List UInt8 :=
  let named := name.toList.map (fun c => c.toNat.toUInt8) ++ body
  numberBytes 4 body.length ++ named ++ numberBytes 4 (cyclic named).toNat

def blockLimit : Nat := 65535

/-- A number as two bytes, the lowest byte first, and its complement. -/
def lengthBytes (n : Nat) : List UInt8 :=
  let low := n.toUInt8
  let high := (n / 256).toUInt8
  [low, high, ~~~ low, ~~~ high]

def blocks : Nat → List UInt8 → List UInt8
  | 0, _ => []
  | n + 1, bytes =>
    let body := bytes.take blockLimit
    let rest := bytes.drop blockLimit
    (if rest.isEmpty then 1 else 0) :: lengthBytes body.length ++ body ++
      (if rest.isEmpty then [] else blocks n rest)

/-- Bytes in a stream that is not compressed. -/
def stored (bytes : List UInt8) : List UInt8 :=
  [0x78, 0x01] ++ blocks (bytes.length / blockLimit + 1) bytes ++ numberBytes 4 (sums bytes)

def encode (rows : List (List Pixel)) : List UInt8 :=
  let width := (rows.head?.map List.length).getD 0
  let data := rows.flatMap fun row => 0 :: row.flatMap fun p => p.color.toList ++ [p.alpha]
  [0x89, 0x50, 0x4e, 0x47, 0x0d, 0x0a, 0x1a, 0x0a] ++
    chunk "IHDR" (numberBytes 4 width ++ numberBytes 4 rows.length ++ [8, 6, 0, 0, 0]) ++
    chunk "IDAT" (stored data) ++ chunk "IEND" []

end Tessera.Png
