/-!
# Dither patterns

Ordered dithering compares the level of a two-colour mix with the rank of a pixel in a cell of two by two pixels. A
pattern gives the ranks, and belongs to a family by its number of levels. A family registers the patterns that it
hands out (`DitherMapSet`).
-/

namespace Tessera.Dither

/-- Whether dithering is used, and how carefully it is measured (`Dither`). -/
inductive Mode where
  | off
  | fast
  | slow
deriving DecidableEq, Repr, Inhabited

/-- The two-by-two patterns (`DitherPattern`). -/
inductive Pattern where
  | diagonal4
  | horizontal4
  | vertical4
  | diagonal2
  | horizontal2
  | vertical2
deriving DecidableEq, Repr, Inhabited

/-- Patterns with the same number of levels (`DitherPixelType`). -/
inductive Family where
  | two
  | four
deriving DecidableEq, Repr, Inhabited

namespace Mode

def all : List Mode := [off, fast, slow]

def name : Mode → String
  | off => "off"
  | fast => "fast"
  | slow => "slow"

def title : Mode → String
  | off => "OFF"
  | fast => "FAST"
  | slow => "SLOW"

def ofName? (s : String) : Option Mode := all.find? fun m => m.name == s

end Mode

namespace Family

/-- The number of levels, and the number by which a family is given. -/
def levels : Family → Nat
  | two => 2
  | four => 4

/-- The title under which a family is listed. -/
def title : Family → String
  | two => "TYPE2"
  | four => "TYPE4"

/-- The patterns that a family registers, in order. -/
def members : Family → List Pattern
  | two => [.diagonal2, .horizontal2, .vertical2]
  | four => [.diagonal4, .horizontal4]

end Family

namespace Pattern

def all : List Pattern := [diagonal4, horizontal4, vertical4, diagonal2, horizontal2, vertical2]

def name : Pattern → String
  | diagonal4 => "diagonal4"
  | horizontal4 => "horizontal4"
  | vertical4 => "vertical4"
  | diagonal2 => "diagonal2"
  | horizontal2 => "horizontal2"
  | vertical2 => "vertical2"

/-- The title under which a pattern is listed. -/
def title : Pattern → String
  | diagonal4 => "DIAGONAL4"
  | horizontal4 => "HORIZONTAL4"
  | vertical4 => "VERTICAL4"
  | diagonal2 => "DIAGONAL2"
  | horizontal2 => "HORIZONTAL2"
  | vertical2 => "VERTICAL2"

def ofName? (s : String) : Option Pattern := all.find? fun p => p.name == s

/-- The family by the number of levels (`pixel_type_of`). -/
def family : Pattern → Family
  | diagonal4 => .four
  | horizontal4 => .four
  | vertical4 => .four
  | diagonal2 => .two
  | horizontal2 => .two
  | vertical2 => .two

def levels (p : Pattern) : Nat := p.family.levels

/-- Whether its own family hands the pattern out. -/
def isRegistered (p : Pattern) : Bool := p.family.members.contains p

/-- The rank in the cell, by whether row and column are odd. -/
def rank : Pattern → Bool → Bool → Nat
  | diagonal4, false, false => 0
  | diagonal4, false, true => 2
  | diagonal4, true, false => 3
  | diagonal4, true, true => 1
  | horizontal4, false, false => 0
  | horizontal4, false, true => 3
  | horizontal4, true, false => 1
  | horizontal4, true, true => 2
  | vertical4, false, false => 0
  | vertical4, false, true => 1
  | vertical4, true, false => 3
  | vertical4, true, true => 2
  | diagonal2, row, column => if row == column then 0 else 1
  | horizontal2, _, column => if column then 1 else 0
  | vertical2, row, _ => if row then 1 else 0

/-- The rank at a position, which may be negative (`rank_at`). -/
def rankAt (p : Pattern) (x y : Int) : Nat := p.rank (y % 2 == 1) (x % 2 == 1)

/-- The ranks of the cell, row by row (`DitherMap.ranks`). -/
def cell (p : Pattern) : List (List Nat) :=
  [[p.rank false false, p.rank false true], [p.rank true false, p.rank true true]]

/-- The ranks of a region with its top left corner at `(x0, y0)`, row by row (`tiled`). -/
def region (p : Pattern) (height width : Nat) (x0 y0 : Int) : List (List Nat) :=
  (List.range height).map fun (y : Nat) =>
    (List.range width).map fun (x : Nat) => p.rankAt ((x : Int) + x0) ((y : Int) + y0)

def describe (p : Pattern) : String :=
  let row (ns : List Nat) : String := "[" ++ ", ".intercalate (ns.map toString) ++ "]"
  "DitherMap(" ++ p.title ++ ", [" ++ ", ".intercalate (p.cell.map row) ++ "])"

end Pattern

end Tessera.Dither
