import Tessera.Decimal.Read
import Tessera.Path
import Tessera.Settings.Draft
/-!
# Flags

The flags of the command line: one for every field of the settings and a few for the run itself. A flag takes a value
of one kind or none at all.
-/

namespace Tessera.Command

/-- The flags. -/
inductive Flag where
  | help
  | outdir
  | field (f : Field)
  | seed
  | jobs
  | workers
  | debug
deriving DecidableEq, Repr, Inhabited

/-- What a flag holds: one value, or no value at all. -/
inductive Held (β : Type) where
  | one (x : β)
  | nothing
deriving DecidableEq, Repr, Inhabited

def Held.value {β : Type} (ofOne : β → Value) : Held β → Value
  | one x => ofOne x
  | nothing => .list []

/-- What a command asks for: the picture or folder to work on, where to write, and how. -/
structure Options where
  src : Path
  outdir : Option (Held Path)
  given : List (Field × Value)
  seed : Option (Held Int)
  jobs : Held Int
  workers : Value
  debug : Bool
deriving Inhabited

namespace Flag

/-- The flags in the order in which they are listed. -/
def all : List Flag := [help, outdir] ++ Field.all.map field ++ [seed, jobs, workers, debug]

def word : Flag → String
  | help => "help"
  | outdir => "outdir"
  | field f => f.name.map fun c => if c = '_' then '-' else c
  | seed => "seed"
  | jobs => "jobs"
  | workers => "workers"
  | debug => "debug"

/-- A flag as it is written (`_flag`). -/
def name (f : Flag) : String := "--" ++ f.word

def helpShort : String := "-h"

def title : Flag → String
  | help => helpShort ++ "/" ++ help.name
  | f => f.name

def inFull? (s : String) : Option Flag := if s = helpShort then some help else all.find? fun f => f.name == s

/-- The name of the kind of value that a field takes. -/
def kindName (f : Field) : String :=
  match f.default with
  | .int _ => "int"
  | .float _ => "float"
  | .mode _ => "Dither"
  | .pattern _ => "DitherPattern"
  | .zero _ => "ColorZeroBehavior"
  | _ => "str"

/-- The value of a field that a text stands for. -/
def readField? (f : Field) (s : String) : Option Value :=
  match f.default with
  | .int _ => (Decimal.readInt? 10 s.toList).map .int
  | .float _ => (Decimal.readFloat? s.toList).map .float
  | .mode _ => (Dither.Mode.ofName? s).map .mode
  | .pattern _ => (Dither.Pattern.ofName? s).map .pattern
  | .zero _ => (ColorZero.ofName? s).map .zero
  | _ => some (.text s)

end Flag

def Options.jobsValue (o : Options) : Value := o.jobs.value .int

/-- The seed as a value, or another one when none is given. -/
def Options.seedValue (o : Options) (otherwise : Nat) : Value := (o.seed.getD (.one otherwise)).value .int

/-- The folder to write to, when there is one. -/
def Options.folder? (o : Options) : Result (Option Path) :=
  match o.outdir with
  | none => pure none
  | some (.one p) => pure (some p)
  | some .nothing => refuse .kind

/-- The draft of the settings that were given (`settings_from_args`). -/
def Options.draft (o : Options) : Draft := Draft.initial.setAll o.given

/-- What is known of the machine: how many cores it has. The answer may be missing, or be of any kind. -/
abbrev Cores := Value

/-- The number of cores, or another number when it is missing or zero. -/
def Cores.orElse (cores : Cores) (otherwise : Nat) : Value := if cores.isTrue then cores else .int otherwise

/-- Cores that are left to the rest of the system. -/
def reservedCores (n : Number) : Nat :=
  if n.le (.whole 6) then 1 else if n.le (.whole 12) then 2 else if n.le (.whole 18) then 3 else 4

/-- The number of workers when none is given (`_default_workers`). -/
def defaultWorkers (cores : Cores) : Result Value := do
  let n ← Number.ofValue (cores.orElse 4)
  pure (Number.max (.whole 1) (← n.sub (.whole (reservedCores n)))).toValue

def defaultJobs : Nat := 2

end Tessera.Command
