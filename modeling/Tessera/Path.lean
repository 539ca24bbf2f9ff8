import Tessera.Text.Half
import Tessera.Text.Lower
/-!
# Paths

A path is a root and the names that lead down from it. Reading a text drops empty names and single dots, so two
texts that differ only in those are one path; two dots are kept. A name has a stem and a suffix, which divide at the
last dot, unless that dot is the name's first or last character: then all of the name is its stem. The ending of a
name tells its format; it is looked for behind all dots in front.

Names and paths have a greatest length, and no name holds the character zero.
-/

namespace Tessera

abbrev FileName := List Char

namespace FileName

def split (n : FileName) : FileName × FileName :=
  match n.reverse.span (· != '.') with
  | (tail, _ :: head) => if tail.isEmpty || head.isEmpty then (n, []) else (head.reverse, '.' :: tail.reverse)
  | (_, []) => (n, [])

/-- Whether a name comes before another in the order of their characters, or is the same. -/
def le : FileName → FileName → Bool
  | [], _ => true
  | _ :: _, [] => false
  | a :: as, b :: bs => if a = b then le as bs else decide (a.toNat < b.toNat)

def stem (n : FileName) : FileName := n.split.1

/-- The suffix of a name with its dot, or nothing. -/
def suffix (n : FileName) : FileName := n.split.2

/-- A name from its last dot on, unless there are only dots before it. -/
def ending (n : FileName) : FileName :=
  match n.reverse.span (· != '.') with
  | (tail, _ :: head) => if head.all (· == '.') then [] else '.' :: tail.reverse
  | (_, []) => []

def maxBytes : Nat := 255

/-- Whether a character is half a character that stands for a byte. Names may hold bytes that are no text. -/
def isByte (c : Char) : Bool := (Text.half? c).any fun u => decide (0xdc80 ≤ u ∧ u < 0xdd00)

def bytes (n : FileName) : Nat := n.foldl (fun k c => k + if isByte c then 1 else c.utf8Size) 0

def isTooLong (n : FileName) : Bool := decide (maxBytes < bytes n)

/-- Whether a name has half a character that stands for nothing. -/
def isBroken (n : FileName) : Bool := n.any fun c => (Text.half? c).isSome && !isByte c

end FileName

/-- A root of no, one or two slashes and the names below it. -/
structure Path where
  root : List Char
  names : List FileName
deriving DecidableEq, Repr, Inhabited

namespace Path

/-- The pieces of a text between its slashes. -/
def segments : List Char → List FileName
  | [] => [[]]
  | c :: cs =>
    if c = '/' then [] :: segments cs
    else
      match segments cs with
      | [] => [[c]]
      | s :: ss => (c :: s) :: ss

/-- The root of a text: two slashes count only when there is no third. -/
def rootOf : List Char → List Char
  | '/' :: '/' :: '/' :: _ => ['/']
  | '/' :: '/' :: _ => ['/', '/']
  | '/' :: _ => ['/']
  | _ => []

def ofText (s : String) : Path where
  root := rootOf s.toList
  names := (segments s.toList).filter fun n => n != [] && n != ['.']

/-- The text of a path. The empty path is a dot. -/
def text (p : Path) : String :=
  if p.root.isEmpty && p.names.isEmpty then "."
  else String.ofList (p.root ++ List.intercalate ['/'] p.names)

def name (p : Path) : FileName := p.names.getLast?.getD []

def title (p : Path) : String := String.ofList p.name

def stem (p : Path) : FileName := p.name.stem

def suffix (p : Path) : FileName := p.name.suffix

def parent (p : Path) : Path := { p with names := p.names.dropLast }

def child (p : Path) (n : FileName) : Path := { p with names := p.names ++ [n] }

/-- The path with another suffix on its last name. -/
def withSuffix (p : Path) (s : FileName) : Path := p.parent.child (p.stem ++ s)

/-- The bytes that the text of a path may have at most. -/
def maxBytes : Nat := 4095

def isTooLong (p : Path) : Bool := decide (maxBytes < FileName.bytes p.text.toList)

/-- Whether a path has a name that no disk can hold. -/
def isBroken (p : Path) : Bool := p.names.any FileName.isBroken

/-- Whether a path can name nothing, because of a character that no name holds. -/
def isImpossible (p : Path) : Bool := p.isBroken || p.names.any fun n => n.any fun c => c.toNat == 0

/-- Whether the suffix is a given one, in any case. -/
def hasSuffix (p : Path) (s : FileName) : Bool := Text.lower p.suffix == s

end Path

end Tessera
