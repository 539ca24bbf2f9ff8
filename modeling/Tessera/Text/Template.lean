import Tessera.Error
/-!
# Templates

A template is a text with gaps for values. A gap starts with a percent sign and ends with a letter that says how the
value is written; flags, a width and a precision may stand between them. A star in place of a size takes a value for it,
and a doubled percent sign is no gap. `check` says whether a text is a template for one whole number.
-/

namespace Tessera.Text.Template

def isFlag (c : Char) : Bool := ['-', '+', ' ', '#', '0'].contains c

/-- Whether a character is a mark of length, which changes nothing. -/
def isLength (c : Char) : Bool := ['h', 'l', 'L'].contains c

/-- The letters that say how a value is written. -/
def conversions : List Char := "sradiuoxXeEfFgGc".toList

def maxWidth : Nat := 0x7fffffffffffffff

def maxPrecision : Nat := 0x7fffffff

/-- Takes the value, which is there only once. -/
def take (used : Bool) : Result Bool := if used then refuse .kind else pure true

def number (digits : List Char) : Nat := digits.foldl (fun n c => 10 * n + (c.toNat - 48)) 0

/-- Reads a size: digits, or a star that takes the value. -/
def size (limit : Nat) (used : Bool) : List Char → Result (Bool × List Char)
  | '*' :: rest => do pure (← take used, rest)
  | cs =>
    if limit < number (cs.takeWhile Char.isDigit) then refuse .notNumber
    else pure (used, cs.dropWhile Char.isDigit)

def precision (used : Bool) : List Char → Result (Bool × List Char)
  | '.' :: rest => size maxPrecision used rest
  | cs => pure (used, cs)

def withoutLength : List Char → List Char
  | c :: cs => if isLength c then cs else c :: cs
  | [] => []

/-- Reads the end of a gap, which takes the value. -/
def conversion (used : Bool) : List Char → Result (Bool × List Char)
  | [] => refuse .notNumber
  | c :: rest => do
    let used ← take used
    if conversions.contains c then pure (used, rest) else refuse .notNumber

/-- Reads a gap behind its percent sign. A gap with a name would need named values. -/
def gap (used : Bool) : List Char → Result (Bool × List Char)
  | '%' :: rest => pure (used, rest)
  | '(' :: _ => refuse .kind
  | cs => do
    let (used, cs) ← size maxWidth used (cs.dropWhile isFlag)
    let (used, cs) ← precision used cs
    conversion used (withoutLength cs)

/-- Reads all gaps, for at most `fuel` characters and gaps, and tells whether the value has been taken. -/
def gaps : Nat → Bool → List Char → Result Bool
  | fuel + 1, used, '%' :: rest => do
    let (used, rest) ← gap used rest
    gaps fuel used rest
  | fuel + 1, used, _ :: rest => gaps fuel used rest
  | _, used, _ => pure used

/-- Refuses a text that is no template for exactly one whole number. -/
def check (s : String) : Result Unit := do
  if ← gaps s.length false s.toList then pure () else refuse .kind

end Tessera.Text.Template
