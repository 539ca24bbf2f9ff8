import Tessera.Workbench.Look
/-!
# Learning on the workbench

The learner at work on palettes whose rates, counts and schedules are values of any kind. Samples are drawn first and
then applied one by one, and the rate of a sample is worked out when its turn comes: what is wrong with a later one does
not keep an earlier one from failing first.
-/

namespace Tessera

/-- Palettes with the errors remembered of them, if any are. -/
structure Trial where
  board : Board
  cache : Option (Cache Float)

namespace Trial

def apply (ts : TileSet) (t : Trial) (x : Sample) (rate : Value) : Result Trial := do
  if t.board.set.size ≠ 1 ∧ t.cache.any fun c => c.version.isEmpty then refuse .choice
  else
    let s ← t.board.known
    let (p, slot, cache?) ← Learn.slotFor ts s t.cache x
    let board ← t.board.moveToward (.int p) (.int slot) (Board.cellsOf (Rgb.ofBytes x.color)) rate
    match cache? with
    | some c => do pure ⟨board, some (← Learn.touchedChecked c s p slot)⟩
    | none => pure ⟨board, none⟩

/-- Applies the sample with a number, at the rate that a schedule has so many samples behind an offset. -/
def applyAt (ts : TileSet) (schedule : ScheduleDraft) (offset : Value) (t : Trial) (step : Nat × Nat) : Result Trial := do
  let rate ← schedule.rate (← Number.add (← Number.ofValue offset) (.whole step.2)).toValue
  match ts.samples[step.1]? with
  | some x => t.apply ts x rate
  | none => pure t

/-- Applies samples in order, starting with nothing remembered. -/
def run (ts : TileSet) (schedule : ScheduleDraft) (offset : Value) (b : Board) (samples : List Nat) : Result Board := do
  let start : Trial := ⟨b, some (Cache.empty ts.tiles.length b.set.size)⟩
  let t ← samples.zipIdx.foldlM (applyAt ts schedule offset) start
  pure t.board

end Trial

namespace Bench

/-- Applies one sample, with the errors remembered when they are asked for and there are any. -/
def moveSample (i rate cached : Value) : Bench Unit := do
  let _ ← learner
  let w ← get
  let ts ← tiles
  let x ← Learn.sampleAt ts i
  let cache := if cached.isTrue then w.cache else none
  let t ← Trial.apply ts ⟨← board, cache⟩ x rate
  setBoard t.board
  match t.cache with
  | some c => setCache c
  | none => pure ()

/-- Draws samples and applies them to a board. -/
def runOn (b : Board) (count : Value) (schedule : ScheduleDraft) (offset : Value) : Bench Board := do
  let l ← learner
  let (drawn, shuffler, source) ← l.shuffler.takeGiven l.source count
  setLearner { l with shuffler, source }
  Trial.run (← tiles) schedule offset b drawn

/-- Draws samples and applies them at rates from a start to an end, and tells the passes and what is left of the last. -/
def learn (count start stop : Value) : Bench (Nat × Nat) := do
  let _ ← learner
  setBoard (← runOn (← board) count (.ofRates start stop count) (.int 0))
  let l ← learner
  pure (l.shuffler.passes, l.shuffler.remaining)

/-- Draws samples and applies them by a schedule. -/
def learnBy (count schedule offset : Value) : Bench Unit := do
  let _ ← learner
  let schedule ← ScheduleDraft.ofValue schedule
  setBoard (← runOn (← board) count schedule offset)

def restore : Bench Unit := do setBoard (← present .member (← get).saved)

def bestOr : Bench Unit := do
  let l ← learner
  match l.best with
  | some b => setBoard (.ofSet b.set)
  | none => setBoard (← board)

/-! ## Growth -/

/-- The slots that palettes lack, when they are to have a number of them of any kind. -/
def lacking (slots : Nat) : Number → Nat
  | .whole n => n.toNat - slots
  | .real x => if x.isNaN then 0 else (Scalar.ceil x).toNat - slots

/-- Grows palettes by one slot; they are settled with samples at one rate. -/
def growOnce (count rate : Value) : Bench (List (Moment Float)) := do
  let b ← board
  let seeded := b.withSet (b.set.addSlot ⟨0, 0, 0⟩ (← seedsOf b))
  let _ ← present .member (← get).learner
  let before ← errorOf seeded
  let settled ← runOn seeded count (.ofRates rate .null count) (.int 0)
  let after ← errorOf settled
  let l ← learner
  let g := l.judge seeded.set settled.set before after
  setBoard (seeded.withSet g.set)
  setLearner g.learner
  pure (g.moment.toList ++ [.grown g.set])

def growBy (count rate : Value) : Nat → Bench (List (Moment Float))
  | 0 => pure []
  | n + 1 => do
    let told ← growOnce count rate
    let rest ← growBy count rate n
    pure (told ++ rest)

/-- The settled sets that were undone so far. -/
def rejections : Bench Nat := do pure ((← get).learner.elim 0 Learner.rejected)

/-- Grows palettes to a number of slots and tells what happened. -/
def grow (target count rate : Value) : Bench (Nat × List (Moment Float)) := do
  let _ ← learnerIfAny
  let b ← board
  let told ← growBy count rate (lacking b.set.slots (← Number.ofValue target))
  pure (← rejections, told)

/-- Grows palettes by one slot and tells what happened. -/
def growOne (count rate : Value) : Bench (Nat × List (Moment Float)) := do
  let _ ← learnerIfAny
  let told ← growBy count rate 1
  pure (← rejections, told)

/-! ## Reseeding -/

/-- Reseeds what contributes little, and tells the counts so far. -/
def replace : Bench Reseeds := do
  let rule ← reseedRule
  let ts ← tiles
  let b ← board
  if ts.entries.isEmpty then pure (← get).counts
  else
    let s ← measured b
    Reseed.check ts s
    let x := Reseed.replace rule ts ⟨s, (← get).counts⟩
    setPalettes x.set
    modify fun w => { w with counts := x.counts }
    pure x.counts

/-! ## Blocks -/

/-- A number of blocks, which has to be an integer. -/
def blocksOf : Value → Result Nat
  | .int n => pure n.toNat
  | .bool b => pure b.toNat
  | _ => refuse .kind

/-- One block of samples with a checkpoint at its end. -/
def block (count : Value) (schedule : ScheduleDraft) (offset : Value) : Bench (Float × Measured Float) := do
  setBoard (← runOn (← board) count schedule offset)
  let (e, l) ← checkpoint
  pure (e, l.measuredBest (← board).set)

/-- Blocks with reseeding from a number on, `left` of them. -/
def replaceFrom (count : Value) (schedule : ScheduleDraft) (blocks : Nat) : Nat → Bench (List (Moment Float))
  | 0 => pure []
  | left + 1 => do
    let index := blocks - (left + 1)
    let _ ← replace
    let (e, best) ← block count schedule (← ScheduleDraft.blockStart index count)
    let rest ← replaceFrom count schedule blocks left
    pure (.replaced index blocks e best :: rest)

def enter (phase : Phase) : Bench (Learner Float Generator) := do
  let l := { ← learner with phase }
  setLearner l
  pure l

def replacePhase (blocks count schedule : Value) : Bench (Learner Float Generator × List (Moment Float)) := do
  let _ ← enter .annealing
  let _ ← reseedRule
  let schedule ← ScheduleDraft.ofValue schedule
  let n ← blocksOf blocks
  let told ← replaceFrom count schedule n n
  let _ ← board
  pure (← learner, told)

/-- Blocks without reseeding from a number on, for at most `fuel` blocks. -/
def finalFrom (schedule : ScheduleDraft) (offset total block : Value) : Nat → Nat → Number → Bench (List (Moment Float))
  | 0, _, _ => pure []
  | fuel + 1, index, done => do
    let all ← Number.ofValue total
    if done.lt all then
      let count := Number.min (← Number.ofValue block) (← all.sub done)
      let start ← Number.add (← Number.ofValue offset) done
      let (e, best) ← Bench.block count.toValue schedule start.toValue
      let next ← done.add count
      let rest ← finalFrom schedule offset total block fuel (index + 1) next
      pure (.refined index next all e best :: rest)
    else pure []

def finalPhase (total block schedule offset : Value) : Bench (Learner Float Generator × List (Moment Float)) := do
  let _ ← learner
  let schedule ← ScheduleDraft.ofValue schedule
  let told ← finalFrom schedule offset total block (ScheduleDraft.mostBlocks total block) 0 (.whole 0)
  let _ ← board
  pure (← enter .converged, told)

end Bench

end Tessera
