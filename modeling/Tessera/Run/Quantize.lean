import Tessera.Order.Generator
import Tessera.Run.Log
/-!
# Quantizing a buffer

A draft of settings and a buffer are checked in one order (`quantize`): the settings, the dither pattern, the buffer,
the sizes, the key colour. Then the run begins. A draft may lack a number, and then the first part of the run that
needs the number refuses. So does the first part that shares its work out when the number of workers is no number.
-/

namespace Tessera

namespace Draft

/-- Refuses when a number that is needed is missing. -/
def need (d : Draft) (fields : List Field) : Result Unit :=
  if fields.any d.missing.contains then refuse .kind else pure ()

/-- Checks everything and plans the run with a way of clustering. -/
def planWith (d : Draft) (means : Cluster.Means Float) (b : Buffer) : Result (Plan Float) := do
  let s ← d.settings
  let _ ← d.usedPattern
  let im ← b.toImage
  d.need [.tileWidth, .tileHeight]
  let tiling ← Tiling.make im.height im.width s.tileWidth s.tileHeight
  let reserved ← im.reserved s.colorZero s.transparentColor
  d.need [.bitsPerChannel, .fractionOfPixels, .numPalettes]
  pure (Plan.make s im tiling reserved means)

def plan (d : Draft) (b : Buffer) : Result (Plan Float) := d.planWith Cluster.lloyd b

/-- Refuses when palettes cannot be composed: sharing out needs a number of workers, and dithering a weight. -/
def needToCompose (d : Draft) (p : Plan Float) (workers : Value) : Result Unit := do
  let _ ← Number.ofValue workers
  if p.settings.useDither then d.need [.ditherWeight] else pure ()

/-- Whether a run was stopped before the number of blocks was needed. -/
def stoppedEarly (o : Outcome Float) : Bool :=
  o.journal.notes.any fun
    | .stopped _ stage => stage = .start || stage = .grow
    | _ => false

/-- Quantizes a buffer, with a way of clustering and a source of orders. The source may be a generator that the caller has,
or a new one when there is no seed. -/
@[specialize] def quantizeWith {γ : Type} [OrderSource γ] (d : Draft) (means : Cluster.Means Float) (b : Buffer)
    (source : Result γ) (workers : Value) (a : Audience Float) : Result (Plan Float × Outcome Float) := do
  let p ← d.planWith means b
  if p.tiles.samples.isEmpty then
    d.needToCompose p workers
    pure (p, p.runIdle a)
  else
    let g ← source
    d.need [.minColorFactor, .minPaletteFactor]
    d.needToCompose p workers
    let o := p.run a g
    if stoppedEarly o then pure () else d.need [.replaceIterations]
    pure (p, o)

/-- Quantizes a buffer with the orders of a seed (`quantize`). -/
def quantize (d : Draft) (b : Buffer) (seed workers : Value) (a : Audience Float) :
    Result (Plan Float × Outcome Float) :=
  d.quantizeWith Cluster.lloyd b (Generator.ofValue seed) workers a

end Draft

end Tessera
