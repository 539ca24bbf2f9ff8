import Tessera.Command.Flag
/-!
# Arguments

Reading the arguments of a command (`parse_cli_args`). First every argument is classified on its own: it is a flag, in
full or abbreviated, with or without a value after an equals sign; or a plain value; or a stranger that looks like a
flag. After a double dash all is plain. Then the flags take their values, the first plain value that is left is the
picture or folder to work on, and whatever else is left is refused.

A flag takes its value behind an equals sign or from the argument that follows. A double dash behind the equals sign
is no value, and leaves the flag holding nothing.
-/

namespace Tessera.Command

/-- Why arguments are refused. -/
inductive Refusal where
  | ambiguous (written : String) (candidates : List Flag)
  | lacksValue (f : Flag)
  | badValue (f : Flag) (kind written : String)
  | unwanted (f : Flag) (written : String)
  | lacksSource
  | strangers (written : List String)
deriving DecidableEq, Repr, Inhabited

/-- Why reading arguments ends early. -/
inductive Halt where
  | help
  | refused (r : Refusal)
deriving DecidableEq, Repr, Inhabited

def program : String := "tile_palette_quant"

namespace Refusal

def about (f : Flag) (s : String) : String := "argument " ++ f.title ++ ": " ++ s

def message : Refusal → String
  | ambiguous s fs => "ambiguous option: " ++ s ++ " could match " ++ ", ".intercalate (fs.map Flag.name)
  | lacksValue f => about f "expected one argument"
  | badValue f kind s => about f ("invalid " ++ kind ++ " value: " ++ Text.quoted s)
  | unwanted f s => about f ("ignored explicit argument " ++ Text.quoted s)
  | lacksSource => "the following arguments are required: src"
  | strangers ss => "unrecognized arguments: " ++ " ".intercalate ss

/-- The line in which the program tells a refusal. -/
def line (r : Refusal) : String := program ++ ": error: " ++ r.message

end Refusal

/-! ## Classifying -/

/-- One argument. -/
inductive Token where
  | plain (s : String)
  | separator
  | flag (f : Flag) (value : Option String)
  /-- The short call for help with something behind it. -/
  | helpWith (rest : String)
  | stranger (s : String)
deriving DecidableEq, Repr, Inhabited

namespace Token

/-- What stands before the first equals sign and what stands after it. -/
def splitEquals (cs : List Char) : List Char × Option (List Char) :=
  match cs.span (· != '=') with
  | (before, _ :: after) => (before, some after)
  | (before, []) => (before, none)

/-- Whether characters are decimal digits, of any script. -/
def areDigits (cs : List Char) : Bool := cs.all fun c => (Text.decimalValue? c).isSome

/-- Whether characters are a number without a sign: digits, or digits after a point. -/
def isUnsigned (cs : List Char) : Bool :=
  match cs.span (· != '.') with
  | (whole, _ :: places) => areDigits whole && areDigits places && !places.isEmpty
  | (whole, []) => areDigits whole && !whole.isEmpty

def dropLineFeed (cs : List Char) : List Char := if cs.getLast? = some '\n' then cs.dropLast else cs

/-- Whether an argument is a negative number. -/
def isNegative : List Char → Bool
  | '-' :: cs => isUnsigned (dropLineFeed cs)
  | _ => false

/-- The flags that an argument after two dashes may abbreviate, with the value it brings. -/
def candidates (cs : List Char) : List Flag × Option String :=
  match cs with
  | '-' :: '-' :: _ =>
    let (before, after) := splitEquals cs
    (Flag.all.filter fun f => before.isPrefixOf f.name.toList, after.map String.ofList)
  | _ => ([], none)

def withValue (written : List Char) (f : Flag) (value : List Char) : Token :=
  if written = Flag.helpShort.toList then helpWith (String.ofList value) else flag f (some (String.ofList value))

/-- The flag that is written in full, alone or before an equals sign. -/
def inFull? (s : String) : Option Token :=
  match Flag.inFull? s with
  | some f => some (flag f none)
  | none =>
    match splitEquals s.toList with
    | (before, some after) => (Flag.inFull? (String.ofList before)).map fun f => withValue before f after
    | _ => none

/-- What stands behind the short call for help, if an argument is one. -/
def helpTail? (cs : List Char) : Option String :=
  match cs with
  | dash :: c :: rest => if [dash, c] = Flag.helpShort.toList then some (String.ofList rest) else none
  | _ => none

/-- An argument that abbreviates a flag, or none. -/
def classifyLoose (s : String) : Except Refusal Token :=
  match helpTail? s.toList, candidates s.toList with
  | some rest, _ => .ok (helpWith rest)
  | none, ([f], value) => .ok (flag f value)
  | none, (f :: g :: fs, _) => .error (.ambiguous s (f :: g :: fs))
  | none, ([], _) => .ok (if isNegative s.toList || s.toList.contains ' ' then plain s else stranger s)

def classify (s : String) : Except Refusal Token :=
  match s.toList with
  | '-' :: _ :: _ => (inFull? s).elim (classifyLoose s) .ok
  | _ => .ok (plain s)

def separatorText : String := "--"

def classifyAll : List String → Except Refusal (List Token)
  | [] => .ok []
  | s :: ss =>
    if s = separatorText then .ok (separator :: ss.map plain)
    else do
      let t ← classify s
      let ts ← classifyAll ss
      pure (t :: ts)

end Token

/-! ## Collecting -/

/-- What has been read so far. -/
structure Gathered where
  src : Option Path
  options : Options
  strangers : List String

namespace Gathered

/-- Nothing has been read, and the number of workers is the one that is used when none is given. -/
def empty (workers : Value) : Gathered where
  src := none
  options := {
    src := default
    outdir := none
    given := []
    seed := none
    jobs := .one defaultJobs
    workers
    debug := false }
  strangers := []

def addStranger (g : Gathered) (s : String) : Gathered := { g with strangers := g.strangers ++ [s] }

def readInt (f : Flag) (s : String) : Except Refusal (Held Int) :=
  (Decimal.readInt? 10 s.toList).elim (.error (.badValue f "int" s)) fun n => .ok (.one n)

def readValue (f : Field) (s : String) : Except Refusal Value :=
  (Flag.readField? f s).elim (.error (.badValue (.field f) (Flag.kindName f) s)) .ok

/-- Gives a flag the value that a reader makes of a text. Of a double dash nothing is made. -/
def held {β : Type} (read : String → Except Refusal (Held β)) (s : String) : Except Refusal (Held β) :=
  if s = Token.separatorText then .ok .nothing else read s

def give (g : Gathered) (f : Flag) (s : String) : Except Refusal Gathered :=
  match f with
  | .help => .error (.unwanted f s)
  | .debug => .error (.unwanted f s)
  | .outdir => do
    let p ← held (fun s => .ok (.one (Path.ofText s))) s
    pure { g with options := { g.options with outdir := some p } }
  | .seed => do
    let n ← held (readInt f) s
    pure { g with options := { g.options with seed := some n } }
  | .jobs => do
    let n ← held (readInt f) s
    pure { g with options := { g.options with jobs := n } }
  | .workers => do
    let n ← held (readInt f) s
    pure { g with options := { g.options with workers := n.value .int } }
  | .field h => do
    let v ← held (fun s => do pure (.one (← readValue h s))) s
    pure { g with options := { g.options with given := g.options.given ++ [(h, v.value id)] } }

/-- How reading ends at the short call for help with something behind it. Further calls for help may follow at once;
nothing else may. -/
def haltAt (rest : String) : Halt :=
  let left := rest.toList.dropWhile fun c => ['-', c] == Flag.helpShort.toList
  if left.isEmpty && !rest.isEmpty then .help else .refused (.unwanted .help (String.ofList left))

def read : List Token → Gathered → Except Halt Gathered
  | [], g => .ok g
  | .stranger s :: ts, g => read ts (g.addStranger s)
  | .flag f (some s) :: ts, g =>
    match g.give f s with
    | .ok g => read ts g
    | .error r => .error (.refused r)
  | .helpWith rest :: _, _ => .error (haltAt rest)
  | .flag .help none :: _, _ => .error .help
  | .flag .debug none :: ts, g => read ts { g with options := { g.options with debug := true } }
  | .flag f none :: .plain s :: ts, g =>
    match g.give f s with
    | .ok g => read ts g
    | .error r => .error (.refused r)
  | .flag f none :: _, _ => .error (.refused (.lacksValue f))
  | .plain s :: .separator :: ts, g =>
    match g.src with
    | none => read ts { g with src := some (Path.ofText s) }
    | some _ => read ts ((g.addStranger s).addStranger Token.separatorText)
  | .plain s :: ts, g =>
    match g.src with
    | none => read ts { g with src := some (Path.ofText s) }
    | some _ => read ts (g.addStranger s)
  | .separator :: .plain s :: ts, g =>
    match g.src with
    | none => read ts { g with src := some (Path.ofText s) }
    | some _ => read ts ((g.addStranger Token.separatorText).addStranger s)
  | .separator :: ts, g => read ts (g.addStranger Token.separatorText)

/-- The options, when there is something to work on and nothing is left over. -/
def finish (g : Gathered) : Except Refusal Options :=
  match g.src with
  | none => .error .lacksSource
  | some src => if g.strangers.isEmpty then .ok { g.options with src } else .error (.strangers g.strangers)

end Gathered

/-- Reads the arguments of a command (`parse_cli_args`). The number of workers is the one that is used when none is given. -/
def Options.ofArguments (workers : Value) (args : List String) : Except Halt Options :=
  match Token.classifyAll args with
  | .error r => .error (.refused r)
  | .ok ts =>
    match Gathered.read ts (Gathered.empty workers) with
    | .error h => .error h
    | .ok g => (g.finish).mapError .refused

end Tessera.Command
