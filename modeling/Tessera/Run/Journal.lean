import Tessera.Composition.Compose
import Tessera.Learn.Phase
/-!
# The journal of a run

A run reports events: how far it has come, in which stage, and the palettes at that point. It also leaves notes for
the log. Both stand in one journal in the order in which they happened. After every report a watch is asked whether
to stop; a stopped job hands out the palettes that it reported last.
-/

namespace Tessera

/-- The stages of a run. -/
inductive Stage where
  | start
  | grow
  | replace
  | refine
  | bitDepth
  | done
deriving DecidableEq, Repr, Inhabited

def Stage.name : Stage → String
  | start => "initialize"
  | grow => "grow"
  | replace => "replace"
  | refine => "final"
  | bitDepth => "bit-depth"
  | done => "done"

/-- A report: percent done, the stage, the palettes, and the image as it would be composed of them when asked
(`ProgressEvent`). -/
structure Event (α : Type) where
  percent : α
  stage : Stage
  set : PaletteSet α
  preview : Option (Composition α)

/-- What a run leaves for the log. -/
inductive Note (α : Type) where
  | sizes (width height tiles samples block : Nat)
  | moment (m : Moment α)
  | grown (slots rejected : Nat)
  | replaced (counts : Reseeds) (best : α)
  | stopped (percent : α) (stage : Stage)
  | finished (mse best : α)

/-- A line of the journal. -/
inductive Record (α : Type) where
  | event (e : Event α)
  | note (n : Note α)

/-- All that happened so far, and the greatest percentage. -/
structure Journal (α : Type) where
  percent : α
  records : List (Record α)

/-- Whether to stop, asked with the number of the report and the report. -/
abbrev Watch (α : Type) := Nat → Event α → Bool

/-- A job that keeps a journal and may be stopped with the palettes reported last. -/
abbrev Job (α : Type) := ExceptT (Event α) (StateM (Journal α))

namespace Journal

variable {α : Type}

def empty [Scalar α] : Journal α := ⟨Scalar.ofNat 0, []⟩

def note (j : Journal α) (n : Note α) : Journal α := { j with records := j.records ++ [.note n] }

def events (j : Journal α) : List (Event α) :=
  j.records.filterMap fun
    | .event e => some e
    | .note _ => none

def notes (j : Journal α) : List (Note α) :=
  j.records.filterMap fun
    | .event _ => none
    | .note n => some n

/-- Adds an event; its percentage is never below an earlier one, nor above a hundred. -/
@[specialize] def report [Scalar α] (j : Journal α) (percent : α) (stage : Stage) (set : PaletteSet α)
    (preview : Option (Composition α)) : Event α × Journal α :=
  let p := if Scalar.ofNat 100 < percent then Scalar.ofNat 100 else percent
  let p := if j.percent < p then p else j.percent
  let e : Event α := ⟨p, stage, set, preview⟩
  (e, ⟨p, j.records ++ [.event e]⟩)

end Journal

namespace Job

variable {α : Type}

def note (n : Note α) : Job α Unit := modify fun j => j.note n

/-- Reports, and stops when the watch says so. -/
@[specialize] def report [Scalar α] (watch : Watch α) (preview : PaletteSet α → Option (Composition α)) (percent : α)
    (stage : Stage) (set : PaletteSet α) : Job α Unit := do
  let j ← get
  let (e, next) := j.report percent stage set (preview set)
  MonadStateOf.set next
  if watch j.events.length e then throw e else pure ()

end Job

end Tessera
