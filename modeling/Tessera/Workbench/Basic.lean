import Tessera.Composition.Compose
import Tessera.Depth
import Tessera.Learn.Note
import Tessera.Order.Generator
import Tessera.Palette.Board
import Tessera.Start
/-!
# The workbench

A workbench has palettes under work, the tiles that they are for, and the tools that work on them: errors
remembered, a learner, and counts of what was reseeded. The tools are made when they are first needed and stay.

Tiles and palettes may be missing, and all numbers are values of any kind. Every operation checks what it is given in
the order in which it needs it, so it may fail where the tools themselves do nothing.
-/

namespace Tessera

/-- What a workbench is set up with. -/
structure Setup where
  draft : Draft
  canvas : Option Canvas
  board : Option Board
  seed : Value
  workers : Value
  mix : Option MixDraft
  colorFactor : Value
  paletteFactor : Value
  passes : Value

/-- Palettes under work with their tools. The palettes that a draft starts come from reading one, and `readings` counts the
readings so far. -/
structure Workbench where
  setup : Setup
  tiles : Option TileSet
  board : Option Board
  saved : Option Board
  cache : Option (Cache Float)
  learner : Option (Learner Float Generator)
  counts : Reseeds
  readings : Nat

namespace Workbench

def settingsReading : Nat := 1

/-- A workbench on which nothing has been done. -/
def start (s : Setup) : Workbench where
  setup := s
  tiles := s.canvas.map Canvas.tiles
  board := s.board
  saved := none
  cache := none
  learner := none
  counts := ⟨0, 0⟩
  readings := settingsReading + 1

/-- The mask of the pixels of a buffer that a policy reserves for the transparent colour of a draft. A policy that is none
reserves nothing. -/
def maskBy (d : Draft) (b : Buffer) (policy : Value) : Result (Tensor UInt8) := do
  let im ← b.toImage
  let key ← d.transparentColor
  let reserved ← match policy with
    | .zero z => im.reserved z key
    | _ => pure (.ofFn fun _ _ => false)
  pure ⟨[im.height, im.width], (reserved.toList.map fun b => if b then 1 else 0).toArray⟩

end Workbench

abbrev Bench := StateT Workbench Result

namespace Bench

def present {β : Type} (f : Fault) : Option β → Bench β
  | some x => pure x
  | none => refuse f

def board : Bench Board := do present .member (← get).board

/-- The palettes under work, when their policy is known. -/
def palettes : Bench (PaletteSet Float) := do (← board).known

/-- The tiles, where a tool looks inside them. -/
def tiles : Bench TileSet := do present .member (← get).tiles

/-- The tiles, where a tool goes through them. -/
def allTiles : Bench TileSet := do present .kind (← get).tiles

def setBoard (b : Board) : Bench Unit := modify fun w => { w with board := some b }

/-- Puts other palettes on the bench, under the same policy. -/
def setPalettes (s : PaletteSet Float) : Bench Unit := do setBoard ((← board).withSet s)

/-- Changes the palettes by something that may fail. -/
def change (f : Board → Result Board) : Bench Unit := do setBoard (← f (← board))

/-- Puts palettes on the bench whose policy has just been read. -/
def place (b : Board) : Bench Unit := do
  let n := (← get).readings
  modify fun w => { w with board := some { b with reading := n }, readings := n + 1 }

/-- The learner, made when there is none; it needs samples. -/
def learner : Bench (Learner Float Generator) := do
  match (← get).learner with
  | some l => pure l
  | none =>
    let ts ← tiles
    let (s, g) ← Shuffler.checked ts.samples.size (Generator.ofValue (← get).setup.seed)
    let l := Learner.start s g
    modify fun w => { w with learner := some l }
    pure l

/-- The learner, unless there are no samples to learn from. -/
def learnerIfAny : Bench (Option (Learner Float Generator)) := do
  if (← tiles).samples.isEmpty then pure none else do pure (some (← learner))

def setLearner (l : Learner Float Generator) : Bench Unit := modify fun w => { w with learner := some l }

def setCache (c : Cache Float) : Bench Unit := modify fun w => { w with cache := some c }

def reseedRule : Bench (ReseedRule Float) := do
  let s := (← get).setup
  Reseed.ruleOf s.colorFactor s.paletteFactor

/-! ## Measuring -/

/-- The palettes of a board where all tiles are measured under all of them. The work may be shared among workers, so
their number has to be one. -/
def measured (b : Board) : Bench (PaletteSet Float) := do
  let s ← b.known
  let _ ← Number.ofValue (← get).setup.workers
  pure s

/-- The palettes of a board, and the rule to measure them by. -/
def measuredBy (mix : Option MixDraft) (ts : TileSet) (b : Board) : Bench (PaletteSet Float × Option (MixRule Float)) := do
  let s ← measured b
  pure (s, ← Fit.ruleFor mix ts s)

/-- The palettes of a board, and the problem that the learner has with them. -/
def problemFor (b : Board) : Bench (PaletteSet Float × Problem Float) := do
  let ts ← tiles
  let (s, rule) ← measuredBy (← get).setup.mix ts b
  pure (s, ⟨ts, rule⟩)

/-- The error of a board by which the learner measures. -/
def errorOf (b : Board) : Bench Float := do
  let (s, pb) ← problemFor b
  pure (Learner.error pb s)

end Bench

end Tessera
