import Tessera.ColorZero
import Tessera.Decimal.Read
import Tessera.Decimal.Shortest
import Tessera.Dither.Pattern
import Tessera.Text.Quoted
/-!
# Loose values

A setting is given as a value of any kind, and the log shows values of any kind. Checking a setting turns
loose values into typed ones; messages show the loose ones. A value has two texts: `display` shows a text as
it is, `quote` puts it between quotes. Inside a list or a dictionary values are always quoted.
-/

namespace Tessera

/-- A value of any kind. -/
inductive Value where
  | null
  | bool (b : Bool)
  | int (n : Int)
  | float (x : Float)
  | text (s : String)
  | list (vs : List Value)
  | dict (names : List String) (vs : List Value)
  | mode (m : Dither.Mode)
  | pattern (p : Dither.Pattern)
  | family (f : Dither.Family)
  | zero (z : ColorZero)
deriving Inhabited

namespace Value

/-- Texts of the kinds that look alike in both forms. -/
def plain : Value → String
  | null => "None"
  | bool b => if b then "True" else "False"
  | int n => toString n
  | float x => Decimal.text x
  | _ => ""

/-- A member of a family of names, in the form for messages. -/
def member (family title name : String) : String :=
  "<" ++ family ++ "." ++ title ++ ": " ++ Text.quoted name ++ ">"

def entry (name text : String) : String := Text.quoted name ++ ": " ++ text

mutual

def quote : Value → String
  | text s => Text.quoted s
  | list vs => "[" ++ ", ".intercalate (quoteAll vs) ++ "]"
  | dict names vs => "\x7b" ++ ", ".intercalate (names.zipWith entry (quoteAll vs)) ++ "\x7d"
  | mode m => member "Dither" m.title m.name
  | pattern p => member "DitherPattern" p.title p.name
  | family f => "<DitherPixelType." ++ f.title ++ ": " ++ toString f.levels ++ ">"
  | zero z => member "ColorZeroBehavior" z.title z.name
  | v => v.plain

def quoteAll : List Value → List String
  | [] => []
  | v :: vs => quote v :: quoteAll vs

end

mutual

/-- Whether a value has a text: the integers in it have no more digits than may be written. -/
def isWritable : Value → Bool
  | int n => Decimal.isWritable n
  | list vs => areWritable vs
  | dict _ vs => areWritable vs
  | _ => true

def areWritable : List Value → Bool
  | [] => true
  | v :: vs => isWritable v && areWritable vs

end

def display : Value → String
  | text s => s
  | mode m => "Dither." ++ m.title
  | pattern p => "DitherPattern." ++ p.title
  | family f => "DitherPixelType." ++ f.title
  | zero z => "ColorZeroBehavior." ++ z.title
  | v => v.quote

def isNull : Value → Bool
  | null => true
  | _ => false

/-- Whether a value counts as true: all do but what is missing, zero or empty. -/
def isTrue : Value → Bool
  | null => false
  | bool b => b
  | int n => n != 0
  | float x => x != 0.0
  | text s => !s.isEmpty
  | list vs => !vs.isEmpty
  | dict names _ => !names.isEmpty
  | _ => true

end Value

end Tessera
