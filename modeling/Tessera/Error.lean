import Tessera.Value
/-!
# Errors

Everything that can go wrong, by its cause. Most causes have a text for the user. A `Fault` is a use that the
library does not foresee, such as a position beyond the end, and has none.
-/

namespace Tessera

/-- Uses that are refused without a text. -/
inductive Fault where
  /-- A position beyond the end. -/
  | position
  /-- A choice from nothing. -/
  | choice
  /-- Sizes that do not fit together. -/
  | shape
  /-- A negative number where a count is needed. -/
  | negative
  /-- A number and a text that cannot be turned into each other: a text of no number, or too many digits. -/
  | notNumber
  /-- A value of a kind that cannot be used here. -/
  | kind
  /-- A value that should be a text or a member of a family. -/
  | member
  /-- A number too large for its place. -/
  | overflow
  /-- Division by zero. -/
  | division
  /-- A name that is not in the table. -/
  | unknown
  /-- Fewer than one cluster. -/
  | clusters
  /-- A file that is not a picture. -/
  | picture
  /-- A file format that cannot be written. -/
  | format
  /-- A file where a folder is needed. -/
  | blocked
  /-- A folder below a file. -/
  | belowFile
  /-- A folder where a file is needed. -/
  | isFolder
  /-- A way through a folder that is not there. -/
  | noWay
  /-- A picture that a file format cannot hold. -/
  | unheld
  /-- A name or a path that is too long. -/
  | longName
  /-- A name that cannot be. -/
  | badName
  /-- A letter that a file format cannot write. -/
  | letters
  /-- A dimension that an array does not have. -/
  | axis
  /-- An operation that arrays of these kinds do not have. -/
  | operation
  /-- More cells than there is room for. -/
  | memory
  /-- A number that a file format has no room for. -/
  | packing
deriving DecidableEq, Repr

/-- Causes of failure (`TileQuantError`). -/
inductive Error where
  | notNumber (field : String) (got : Value)
  | notInteger (field : String) (got : Value)
  | outside (field : String) (got lo hi : Value)
  | notMember (field family : String) (got : Value)
  | hexLength (source : String)
  | hexDigits (source : String)
  | pixelBuffer
  | fewSlots (colors slots : Int) (zero : ColorZero)
  | emptyImage (width height : Value)
  | unevenTiles (width height tileWidth tileHeight : Value)
  | unknownPattern (got : Value)
  | unknownFamily (got : Value)
  | foreignPattern (pattern : Dither.Pattern) (family : Dither.Family)
  | noColours
  | paletteShape (shape : List Nat)
  | noSamples
  | tooManyColours (count : Nat)
  | fault (f : Fault)
deriving Inhabited

/-- A shape in parentheses; a single number keeps a comma. -/
def showShape : List Nat → String
  | [n] => "(" ++ toString n ++ ",)"
  | ns => "(" ++ ", ".intercalate (ns.map toString) ++ ")"

namespace Error

def message? : Error → Option String
  | notNumber f v => some (f ++ " must be a number, got " ++ v.quote)
  | notInteger f v => some (f ++ " must be an integer, got " ++ v.quote)
  | outside f v lo hi =>
    some (f ++ "=" ++ v.display ++ " outside [" ++ lo.display ++ ", " ++ hi.display ++ "]")
  | notMember f family v => some (f ++ " must be a " ++ family ++ ", got " ++ v.quote)
  | hexLength s => some ("hex colour must be '#rrggbb' or '#rgb': " ++ Text.quoted s)
  | hexDigits s => some ("invalid hex colour: " ++ Text.quoted s)
  | pixelBuffer => some "expected uint8 (H,W,3/4) pixel buffer"
  | fewSlots colors slots zero =>
    some ("colors_per_palette=" ++ toString colors ++ " leaves " ++ toString slots ++
      " optimisable slot(s) under " ++ zero.name ++ "; at least 2 are required")
  | emptyImage w h => some ("empty image " ++ w.display ++ "x" ++ h.display)
  | unevenTiles w h tw th =>
    some ("image " ++ w.display ++ "x" ++ h.display ++ " is not a multiple of tile " ++ tw.display ++ "x" ++ th.display)
  | unknownPattern v => some ("unhandled dither pattern: " ++ v.quote)
  | unknownFamily v => some ("unhandled dither pixel type: " ++ v.quote)
  | foreignPattern p f => some (p.title ++ " is not a " ++ f.title ++ " pattern")
  | noColours => some "no palette colours to compose with"
  | paletteShape shape => some ("palette colours must be (P, K, 3), got " ++ showShape shape)
  | noSamples => some "SampleShuffler needs at least one sample"
  | tooManyColours n => some (toString n ++ " colours do not fit an indexed image")
  | fault _ => none

/-- Whether the text of an error can be made of the values that it shows. -/
def isWritable : Error → Bool
  | notNumber _ v => v.isWritable
  | notInteger _ v => v.isWritable
  | outside _ v lo hi => v.isWritable && lo.isWritable && hi.isWritable
  | notMember _ _ v => v.isWritable
  | emptyImage w h => w.isWritable && h.isWritable
  | unevenTiles w h tw th => w.isWritable && h.isWritable && tw.isWritable && th.isWritable
  | unknownPattern v => v.isWritable
  | unknownFamily v => v.isWritable
  | _ => true

end Error

abbrev Result := Except Error

def refuse {β : Type} (f : Fault) : Result β := .error (.fault f)

/-- Fails with an error, for which its text has to be made. -/
def reject {β : Type} (e : Error) : Result β := if e.isWritable then .error e else refuse .notNumber

/-- The position that an integer names in a list of `n`: negative ones count from the end. -/
def position (n : Nat) (i : Int) : Result Nat :=
  let j := if i < 0 then i + n else i
  if 0 ≤ j && j < n then pure j.toNat else refuse .position

end Tessera
