/-!
# Halves of characters

A text may come from a source that counts in units of 16 bits, where some characters are pairs of units. A unit that
belongs to a pair can stand there alone. It is half a character: it counts as one, it is never shown as it is, and no
file can hold it. Halves are kept as characters of a private area, so that a text stays a list of characters.
-/

namespace Tessera.Text

def firstHalf : Nat := 0xd800

/-- The number of units that belong to pairs. -/
def halves : Nat := 0x800

/-- The private character that stands for the first half. -/
def halfMark : Nat := 0x10a800

/-- The character of a unit that stands alone. -/
def ofUnit (u : Nat) : Char :=
  if firstHalf ≤ u ∧ u < firstHalf + halves then Char.ofNat (halfMark + (u - firstHalf)) else Char.ofNat u

/-- The unit that a character stands for, when it is half a character. -/
def half? (c : Char) : Option Nat :=
  if halfMark ≤ c.toNat ∧ c.toNat < halfMark + halves then some (firstHalf + (c.toNat - halfMark)) else none

/-- The number of a character, which is the unit of half a character. -/
def code (c : Char) : Nat := (half? c).getD c.toNat

/-- The character of two units that stand together, when they are a pair. -/
def ofPair? (high low : Nat) : Option Char :=
  if firstHalf ≤ high ∧ high < 0xdc00 ∧ 0xdc00 ≤ low ∧ low < firstHalf + halves then
    some (Char.ofNat (0x10000 + (high - firstHalf) * 0x400 + (low - 0xdc00)))
  else none

/-- The units of a character: one, or two for a character that is a pair. -/
def units (c : Char) : List Nat :=
  let n := code c
  if n < 0x10000 then [n] else [firstHalf + (n - 0x10000) / 0x400, 0xdc00 + (n - 0x10000) % 0x400]

def isWhole (s : String) : Bool := s.toList.all fun c => (half? c).isNone

end Tessera.Text
