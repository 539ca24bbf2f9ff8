import Tessera.Picture.Basic
/-!
# Orientations

A picture file may say how its rows have to be turned to stand upright. There are eight ways, numbered from one; a
number that is none of them turns nothing.
-/

namespace Tessera

/-- A picture with the number of its orientation. -/
structure Scan where
  picture : Picture
  orientation : Nat

namespace Orientation

variable {β : Type}

def transpose (rows : List (List β)) : List (List β) :=
  (List.range ((rows.head?.map List.length).getD 0)).map fun x => rows.filterMap fun row => row[x]?

def swapSides (rows : List (List β)) : List (List β) := rows.map List.reverse

def swapEnds (rows : List (List β)) : List (List β) := rows.reverse

/-- The number of an orientation that a file can hold: a word of 16 bits, and one when none is given. -/
def ofValue : Value → Result Nat
  | .null => pure 1
  | .bool b => pure b.toNat
  | .int n => if 0 ≤ n ∧ n < 0x10000 then pure n.toNat else refuse .packing
  | _ => refuse .packing

def upright (orientation : Nat) (rows : List (List β)) : List (List β) :=
  match orientation with
  | 2 => swapSides rows
  | 3 => swapEnds (swapSides rows)
  | 4 => swapEnds rows
  | 5 => transpose rows
  | 6 => transpose (swapEnds rows)
  | 7 => swapEnds (transpose (swapEnds rows))
  | 8 => swapEnds (transpose rows)
  | _ => rows

end Orientation

namespace Scan

def pixels (s : Scan) : List (List Pixel) := Orientation.upright s.orientation s.picture.pixels

/-- The buffer of a scan (`load_image_rgba`). -/
def load (s : Scan) : Buffer := Picture.toBuffer s.pixels

end Scan

end Tessera
