import Tessera.Depth
import Tessera.Run.Journal
import Tessera.Start
/-!
# A run

Palettes are started, grown, refined with reseeding, refined without it, reduced to the bit depth and composed
(`quantize`). Without dithering the image itself is reduced to the bit depth first. A stopped run composes the
palettes that it reported last. When no pixel is left to optimise, the starting palettes are composed at once.
-/

namespace Tessera

/-- What a run works on, and the way in which it clusters its tiles. -/
structure Plan (α : Type) where
  settings : Settings α
  canvas : Canvas
  tiles : TileSet
  means : Cluster.Means α

/-- What comes of a run. -/
structure Outcome (α : Type) where
  composition : Composition α
  journal : Journal α

/-- How a run is watched: when to stop, and whether reports come with a composition. -/
structure Audience (α : Type) where
  watch : Watch α
  preview : Bool

namespace Plan

variable {α : Type} [Scalar α]

/-- The colours that a run works with: the image's own with dithering, those of the bit depth without. -/
def workColors (s : Settings α) (im : Image) : Raster (Rgb UInt8) im.height im.width :=
  if s.useDither then im.colors else im.colors.map (Level.snapColor α s.bitsPerChannel)

/-- The plan of an image with its reserved pixels and its tiling. -/
def make (s : Settings α) (im : Image) (tiling : Tiling im.height im.width)
    (reserved : Raster Bool im.height im.width) (means : Cluster.Means α) : Plan α :=
  let canvas : Canvas := ⟨im.height, im.width, tiling, workColors s im, reserved⟩
  ⟨s, canvas, canvas.tiles, means⟩

def block (p : Plan α) : Nat := p.settings.blockIterations p.tiles.samples.size

/-- How the learner measures: with mixes only when dithering is measured with care. -/
def rule (p : Plan α) : Option (MixRule α) :=
  if p.settings.dither = .slow then p.settings.dithering.map Dithering.rule else none

def problem (p : Plan α) : Problem α := ⟨p.tiles, p.rule⟩

def reseedRule (p : Plan α) : ReseedRule α := ⟨p.settings.minColorFactor, p.settings.minPaletteFactor⟩

/-- Blocks without reseeding (`FINAL_PHASE_BLOCKS`). -/
def finalBlocks : Nat := 10

def finalTotal (p : Plan α) : Nat := finalBlocks * p.block

def replaceTotal (p : Plan α) : Nat := p.settings.replaceIterations * p.block

def schedule (p : Plan α) : Schedule α :=
  ⟨p.settings.startRate, p.settings.endRate, ((p.replaceTotal + p.finalTotal : Nat) : Int)⟩

/-- The rates of the samples after each slot that is added. -/
def growRates (p : Plan α) : List α := (Schedule.constant p.settings.startRate p.block).rates 0 p.block

def replaceRates (p : Plan α) : List (List α) := p.schedule.blockRates p.settings.replaceIterations p.block

/-- The rates of the blocks without reseeding, which go on where those end. -/
def finalRates (p : Plan α) : List (Stretch α) := p.schedule.stretches (p.replaceTotal : Int) p.finalTotal p.block

def start (p : Plan α) : PaletteSet α :=
  Start.palettes p.means p.tiles p.settings.numPalettes p.settings.colorZero p.settings.sharedColor
    p.settings.transparentColor

/-- The composition of palettes, lengthened to the number of colours. -/
@[specialize] def compose (p : Plan α) (s : PaletteSet α) (cancelled : Bool) : Composition α :=
  Compose.compose p.settings.dithering p.canvas p.tiles (s.padded p.settings.colorsPerPalette) cancelled

/-! ## Percentages -/

/-- The percentage after growth (`PROGRESS_STEPS`). -/
def growEnd : Nat := 25

/-- The percentage after the blocks with reseeding. -/
def replaceEnd : Nat := 65

/-- The percentage after the blocks without reseeding. -/
def finalEnd : Nat := 90

/-- The percentage after reducing with dithering (`PROGRESS_DITHER_REDUCE_END`). -/
def ditherEnd : Nat := 94

def allDone : Nat := 100

/-- The percentage when `num` of `den` steps between two percentages are done (`_lerp`). -/
def between (lo hi num den : Nat) : α :=
  Scalar.ofNat lo + (Scalar.ofNat hi - Scalar.ofNat lo) * Scalar.clampUnit (Scalar.ofNat num / Scalar.ofNat den)

/-! ## The stages -/

variable {γ : Type} [OrderSource γ]

/-- The composition for a report, when the audience asks for it. -/
@[specialize] def previewFor (p : Plan α) (a : Audience α) (s : PaletteSet α) : Option (Composition α) :=
  if a.preview then some (p.compose s false) else none

/-- Reports to an audience (`_Progress.report`). -/
@[specialize] def report (p : Plan α) (a : Audience α) (percent : α) (stage : Stage) (s : PaletteSet α) : Job α Unit :=
  Job.report a.watch (p.previewFor a) percent stage s

/-- Tells a moment to an audience: a note for the log, and a report where a step is over. -/
@[specialize] def tell (p : Plan α) (a : Audience α) (m : Moment α) : Job α Unit := do
  let slots := p.settings.colorZero.initialSlots
  Job.note (.moment m)
  match m with
  | .rejected .. => pure ()
  | .grown s =>
    p.report a (between 0 growEnd (s.slots - slots) (max 1 (p.settings.colorsPerPalette - slots))) .grow s
  | .replaced index count _ best => p.report a (between growEnd replaceEnd (index + 1) count) .replace best.set
  | .refined index _ _ _ best =>
    p.report a (between replaceEnd finalEnd (index + 1) (countBlocks α p.finalTotal p.block).toNat) .refine best.set
  | .corrected index s => p.report a (between finalEnd allDone (index + 1) (Depth.defaultPasses + 1)) .bitDepth s

@[specialize] def growStage (p : Plan α) (a : Audience α) (l : Learner α γ) (s : PaletteSet α) :
    Job α (PaletteSet α × Learner α γ) := do
  let (s, l) ← l.grow (p.tell a) p.problem s p.settings.colorsPerPalette p.growRates
  p.report a (Scalar.ofNat growEnd) .grow s
  Job.note (.grown s.slots l.rejected)
  pure (s, l)

@[specialize] def replaceStage (p : Plan α) (a : Audience α) (l : Learner α γ) (s : PaletteSet α) :
    Job α (PaletteSet α × Learner α γ) := do
  let w ← Learner.replacePhase (p.tell a) p.problem p.reseedRule p.replaceRates ⟨s, l, ⟨0, 0⟩⟩
  let s := w.learner.bestOr w.set
  let s := if p.settings.useDither then s else Depth.reduce p.settings.bitsPerChannel s
  Job.note (.replaced w.counts w.learner.bestError)
  pure (s, w.learner)

@[specialize] def finalStage (p : Plan α) (a : Audience α) (l : Learner α γ) (s : PaletteSet α) :
    Job α (PaletteSet α × Learner α γ) := do
  let (s, l) ← Learner.finalPhase (p.tell a) p.problem p.finalRates s l
  pure (l.bestOr s, l)

@[specialize] def depthStage (p : Plan α) (a : Audience α) (s : PaletteSet α) : Job α (PaletteSet α) := do
  let bits := p.settings.bitsPerChannel
  if p.settings.useDither then
    let s := Depth.reduce bits s
    p.report a (Scalar.ofNat ditherEnd) .bitDepth s
    pure s
  else Depth.correct (p.tell a) bits Depth.defaultPasses p.tiles s

/-- All stages, from the starting palettes to the final ones. -/
@[specialize] def optimise (p : Plan α) (a : Audience α) (l : Learner α γ) : Job α (PaletteSet α × Learner α γ) := do
  let s := p.start
  p.report a (Scalar.ofNat 0) .start s
  let (s, l) ← p.growStage a l s
  let (s, l) ← p.replaceStage a l s
  let (s, l) ← p.finalStage a l s
  let s ← p.depthStage a s
  pure (s, l)

def sizes (p : Plan α) : Note α :=
  .sizes p.canvas.width p.canvas.height p.tiles.tiles.length p.tiles.samples.size p.block

@[specialize] def runIdle (p : Plan α) (a : Audience α) : Outcome α :=
  let s := Depth.reduce p.settings.bitsPerChannel (p.start.padded p.settings.colorsPerPalette)
  let (_, j) := (Journal.empty.note p.sizes).report (Scalar.ofNat allDone) .done s (p.previewFor a s)
  ⟨p.compose s false, j⟩

@[specialize] def runWith (p : Plan α) (a : Audience α) (source : γ) : Outcome α :=
  let (shuffler, source) := Shuffler.start p.tiles.samples.size source
  match StateT.run (ExceptT.run (p.optimise a (Learner.start shuffler source))) (Journal.empty.note p.sizes) with
  | (.ok (s, l), j) =>
    let c := p.compose s false
    let (_, j) := j.report (Scalar.ofNat allDone) .done s (p.previewFor a s)
    ⟨c, j.note (.finished c.mse l.bestError)⟩
  | (.error e, j) => ⟨p.compose e.set true, j.note (.stopped e.percent e.stage)⟩

/-- A run (`quantize`). The source of orders is asked only when there are samples. -/
@[specialize] def run (p : Plan α) (a : Audience α) (source : γ) : Outcome α :=
  if p.tiles.samples.isEmpty then p.runIdle a else p.runWith a source

end Plan

end Tessera
