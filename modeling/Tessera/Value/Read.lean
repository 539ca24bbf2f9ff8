import Tessera.Decimal.Read
import Tessera.Hex
import Tessera.Text.Half
import Tessera.Value
/-!
# Reading values

Values are written down as nested lists between brackets and dictionaries between braces, with texts between double
quotes. A number with a point or an exponent is a real one, any other is whole. In a text a backslash starts an escape; a
character may be given by its units of 16 bits. Of two entries of a dictionary with one name the later value counts, in the
place of the earlier.

`Value.read?` reads one value from the start of a text. It goes on for at most as many steps as there are characters.
-/

namespace Tessera.Value

def skipBlanks (cs : List Char) : List Char := cs.dropWhile fun c => [' ', '\n', '\t', '\r'].contains c

def readUnit? : List Char → Option (Nat × List Char)
  | a :: b :: c :: d :: rest => do
    pure (((← Hex.digit? a) * 16 + (← Hex.digit? b)) * 256 + (← Hex.digit? c) * 16 + (← Hex.digit? d), rest)
  | _ => none

/-- Reads the character of a unit, or of two units that are a pair. -/
def readUnits? (cs : List Char) : Option (Char × List Char) := do
  let (high, rest) ← readUnit? cs
  match rest with
  | '\\' :: 'u' :: more =>
    match readUnit? more with
    | some (low, more) => pure ((Text.ofPair? high low).elim (Text.ofUnit high, rest) fun c => (c, more))
    | none => pure (Text.ofUnit high, rest)
  | _ => pure (Text.ofUnit high, rest)

def readEscape? : List Char → Option (Char × List Char)
  | 'n' :: rest => some ('\n', rest)
  | 't' :: rest => some ('\t', rest)
  | 'r' :: rest => some ('\r', rest)
  | 'b' :: rest => some (Char.ofNat 8, rest)
  | 'f' :: rest => some (Char.ofNat 12, rest)
  | 'u' :: rest => readUnits? rest
  | c :: rest => some (c, rest)
  | [] => none

def readText? : Nat → List Char → List Char → Option (String × List Char)
  | _, done, '"' :: rest => some (String.ofList done.reverse, rest)
  | fuel + 1, done, '\\' :: rest => do
    let (c, rest) ← readEscape? rest
    readText? fuel (c :: done) rest
  | fuel + 1, done, c :: rest => readText? fuel (c :: done) rest
  | _, _, _ => none

def ofWord? (w : List Char) : Option Value :=
  match String.ofList w with
  | "null" => some .null
  | "true" => some (.bool true)
  | "false" => some (.bool false)
  | "NaN" => some (.float (0.0 / 0.0))
  | "Infinity" => some (.float (1.0 / 0.0))
  | "-Infinity" => some (.float (-1.0 / 0.0))
  | s => if w.any fun c => ['.', 'e', 'E'].contains c then (Decimal.readFloat? w).map .float else s.toInt?.map .int

def setName (k : String) (v : Value) : List String → List Value → List String × List Value
  | n :: ns, w :: ws =>
    if n == k then (n :: ns, v :: ws)
    else
      let (ns, ws) := setName k v ns ws
      (n :: ns, w :: ws)
  | _, _ => ([k], [v])

/-- Whether a character may stand in a word or a number. -/
def isWordChar (c : Char) : Bool := c.isAlphanum || ['+', '-', '.'].contains c

mutual

def readFrom? (fuel : Nat) (cs : List Char) : Option (Value × List Char) :=
  match fuel, skipBlanks cs with
  | fuel + 1, '"' :: rest => (readText? fuel [] rest).map fun (s, rest) => (.text s, rest)
  | fuel + 1, '[' :: rest =>
    match skipBlanks rest with
    | ']' :: rest => some (.list [], rest)
    | rest => readItems? fuel [] rest
  | fuel + 1, '\x7b' :: rest =>
    match skipBlanks rest with
    | '\x7d' :: rest => some (.dict [] [], rest)
    | rest => readEntries? fuel [] [] rest
  | _, cs => do
    let (word, rest) := cs.span isWordChar
    pure (← ofWord? word, rest)
termination_by fuel

/-- Reads the values of a list and its end; those read so far stand in reverse. -/
def readItems? (fuel : Nat) (done : List Value) (cs : List Char) : Option (Value × List Char) :=
  match fuel with
  | 0 => none
  | fuel + 1 => do
    let (v, rest) ← readFrom? fuel cs
    match skipBlanks rest with
    | ',' :: rest => readItems? fuel (v :: done) rest
    | ']' :: rest => pure (.list (v :: done).reverse, rest)
    | _ => none
termination_by fuel

/-- Reads the entries of a dictionary and its end. -/
def readEntries? (fuel : Nat) (names : List String) (vs : List Value) (cs : List Char) : Option (Value × List Char) :=
  match fuel, skipBlanks cs with
  | fuel + 1, '"' :: rest => do
    let (k, rest) ← readText? fuel [] rest
    match skipBlanks rest with
    | ':' :: rest =>
      let (v, rest) ← readFrom? fuel rest
      let (names, vs) := setName k v names vs
      match skipBlanks rest with
      | ',' :: rest => readEntries? fuel names vs rest
      | '\x7d' :: rest => pure (.dict names vs, rest)
      | _ => none
    | _ => none
  | _, _ => none
termination_by fuel

end

def read? (s : String) : Option Value :=
  let cs := s.toList
  (readFrom? (cs.length + 1) cs).map Prod.fst

end Tessera.Value
