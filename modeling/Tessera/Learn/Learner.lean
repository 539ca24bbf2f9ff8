import Tessera.Learn.Move
import Tessera.Learn.Schedule
import Tessera.Order.Shuffler
/-!
# The learner

The learner draws samples from a shuffler and applies them to the working palettes (`run_scheduled`). At checkpoints
(`checkpoint`) it measures the working palettes and keeps the best set so far, which later samples do not touch.
-/

namespace Tessera

/-- What learning is about: the tiles, and the rule by which a set is measured. -/
structure Problem (α : Type) where
  tiles : TileSet
  rule : Option (MixRule α)

/-- How far learning has come. -/
inductive Phase where
  | growing
  | annealing
  | converged
deriving DecidableEq, Repr, Inhabited

def Phase.name : Phase → String
  | growing => "growing"
  | annealing => "annealing"
  | converged => "converged"

/-- A palette set with its error. -/
structure Measured (α : Type) where
  set : PaletteSet α
  error : α

/-- The state of learning (`RefinementEngine`). The history has the least error so far after each checkpoint. -/
structure Learner (α γ : Type) where
  shuffler : Shuffler
  source : γ
  best : Option (Measured α)
  history : List α
  phase : Phase
  rejected : Nat

namespace Learner

variable {α γ : Type} [Scalar α] [OrderSource γ]

def start (shuffler : Shuffler) (source : γ) : Learner α γ := ⟨shuffler, source, none, [], .growing, 0⟩

/-- The mean error of a set by the rule of the problem (`RefinementEngine.error`). -/
@[specialize] def error (pb : Problem α) (s : PaletteSet α) : α := Fit.meanError pb.rule pb.tiles s

def bestError (l : Learner α γ) : α := l.best.elim Scalar.infinite Measured.error

/-- Draws a sample for each rate and applies the samples in order (`run_scheduled`). -/
@[specialize] def run (pb : Problem α) (l : Learner α γ) (s : PaletteSet α) (rates : List α) :
    PaletteSet α × Learner α γ :=
  let (drawn, shuffler, source) := l.shuffler.take l.source rates.length
  (Learn.run pb.tiles s (drawn.zip rates), { l with shuffler, source })

/-- Whether an error beats the best so far; the first one always does. -/
def beats (l : Learner α γ) (e : α) : Bool :=
  match l.best with
  | none => true
  | some b => decide (e < b.error)

/-- Measures a set and keeps it when it is better than the best so far (`RefinementEngine.checkpoint`). -/
@[specialize] def checkpoint (pb : Problem α) (l : Learner α γ) (s : PaletteSet α) : α × Learner α γ :=
  let e := error pb s
  let best := if l.beats e then some ⟨s, e⟩ else l.best
  let l := { l with best }
  (e, { l with history := l.history ++ [l.bestError] })

/-- The best set, or a given one when nothing has been measured (`best_or`). -/
def bestOr (l : Learner α γ) (s : PaletteSet α) : PaletteSet α := l.best.elim s Measured.set

end Learner

end Tessera
