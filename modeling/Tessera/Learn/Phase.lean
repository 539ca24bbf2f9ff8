import Tessera.Learn.Learner
import Tessera.Learn.Reseed
/-!
# The phases of learning

Palettes grow slot by slot (`grow`); then blocks of samples alternate with reseeding (`replace_phase`); then further
blocks follow without it (`final_phase`). What happens at the end of each step is told as a moment, in any monad, so
that a listener can note it, show it, or end the work.
-/

namespace Tessera

/-- What learning tells of itself. -/
inductive Moment (α : Type) where
  /-- Settling made a grown set worse, so it was undone. -/
  | rejected (slots : Nat) (after before : α)
  /-- Every palette has one slot more. -/
  | grown (set : PaletteSet α)
  /-- A block with reseeding is over. -/
  | replaced (index count : Nat) (error : α) (best : Measured α)
  /-- A block without reseeding is over: so many samples of so many are done. -/
  | refined (index : Nat) (done total : Number) (error : α) (best : Measured α)
  /-- A corrective pass is over. -/
  | corrected (index : Nat) (set : PaletteSet α)

namespace Learner

variable {α γ : Type} [Scalar α] [OrderSource γ]

/-! ## Growth -/

/-- The seed of a palette: of the entries of its tiles the colour with the greatest weighted error, or its last
colour when it has no tiles. -/
@[specialize] def growthSeed (rs : Reseed.Residuals α) (p : Nat) (last : Rgb α) : Rgb α :=
  let own := rs.filter fun (_, r) => r.palette == p
  match Pick.greatest? (own.map fun (e, r) => r.error * Scalar.ofNat e.count) with
  | none => last
  | some (i, _) => (own[i]?).elim last fun (e, _) => Rgb.ofBytes e.color

/-- The seeds of a new slot, one for each palette (`PaletteGrower.seeds`). -/
@[specialize] def growthSeeds (ts : TileSet) (s : PaletteSet α) : List (Rgb α) :=
  let rs := Reseed.residuals ts s (Fit.assignment none ts s)
  s.toLists.zipIdx.map fun (cs, p) => growthSeed rs p (cs.getLast?.getD (Rgb.fill (Scalar.ofNat 0)))

@[specialize] def seeded (ts : TileSet) (s : PaletteSet α) : PaletteSet α :=
  s.addSlot (Rgb.fill (Scalar.ofNat 0)) (growthSeeds ts s)

/-- A grown set, with what was told of it. -/
structure Grown (α γ : Type) where
  set : PaletteSet α
  learner : Learner α γ
  moment : Option (Moment α)

/-- The set to go on with after settling, by the errors before and after it: a settled set that is worse than the seeded
one is undone. -/
def judge (l : Learner α γ) (seeded settled : PaletteSet α) (before after : α) : Grown α γ :=
  if before < after then
    ⟨seeded, { l with rejected := l.rejected + 1 }, some (.rejected seeded.slots after before)⟩
  else ⟨settled, l, none⟩

/-- Adds a slot and settles with samples at given rates, unless that makes the set worse (`grow_one`). -/
@[specialize] def growOne (pb : Problem α) (l : Learner α γ) (s : PaletteSet α) (rates : List α) : Grown α γ :=
  let start := seeded pb.tiles s
  let before := error pb start
  let (settled, l) := l.run pb start rates
  l.judge start settled before (error pb settled)

variable {m : Type → Type} [Monad m]

@[specialize] def growBy (tell : Moment α → m Unit) (pb : Problem α) (rates : List α) :
    Nat → PaletteSet α → Learner α γ → m (PaletteSet α × Learner α γ)
  | 0, s, l => pure (s, l)
  | n + 1, s, l => do
    let g := l.growOne pb s rates
    match g.moment with
    | some x => tell x
    | none => pure ()
    tell (.grown g.set)
    growBy tell pb rates n g.set g.learner

/-- Grows palettes to a number of slots (`PaletteGrower.grow`). -/
@[specialize] def grow (tell : Moment α → m Unit) (pb : Problem α) (l : Learner α γ) (s : PaletteSet α) (target : Nat)
    (rates : List α) : m (PaletteSet α × Learner α γ) :=
  growBy tell pb rates (target - s.slots) s l

/-! ## Blocks -/

/-- The palettes at work, the learner and the counts of reseeding. -/
structure Work (α γ : Type) where
  set : PaletteSet α
  learner : Learner α γ
  counts : Reseeds

/-- The set that a checkpoint has just left as the best, with its error. -/
def measuredBest (l : Learner α γ) (s : PaletteSet α) : Measured α := l.best.getD ⟨s, Scalar.infinite⟩

@[specialize] def replaceBlock (pb : Problem α) (rule : ReseedRule α) (rates : List α) (w : Work α γ) : α × Work α γ :=
  let x := Reseed.replace rule pb.tiles ⟨w.set, w.counts⟩
  let (s, l) := w.learner.run pb x.set rates
  let (e, l) := l.checkpoint pb s
  (e, ⟨s, l, x.counts⟩)

/-- Blocks with reseeding from a number on, of `count` in all. -/
@[specialize] def replaceFrom (tell : Moment α → m Unit) (pb : Problem α) (rule : ReseedRule α) (count : Nat) :
    Nat → List (List α) → Work α γ → m (Work α γ)
  | _, [], w => pure w
  | index, rates :: blocks, w => do
    let (e, w) := replaceBlock pb rule rates w
    tell (.replaced index count e (measuredBest w.learner w.set))
    replaceFrom tell pb rule count (index + 1) blocks w

/-- The phase of blocks with reseeding (`replace_phase`). Each block is given by the rates of its samples. -/
@[specialize] def replacePhase (tell : Moment α → m Unit) (pb : Problem α) (rule : ReseedRule α) (blocks : List (List α))
    (w : Work α γ) : m (Work α γ) :=
  replaceFrom tell pb rule blocks.length 0 blocks { w with learner := { w.learner with phase := .annealing } }

@[specialize] def finalBlock (pb : Problem α) (rates : List α) (s : PaletteSet α) (l : Learner α γ) :
    α × PaletteSet α × Learner α γ :=
  let (s, l) := l.run pb s rates
  let (e, l) := l.checkpoint pb s
  (e, s, l)

/-- Blocks without reseeding from a number on. -/
@[specialize] def finalFrom (tell : Moment α → m Unit) (pb : Problem α) :
    Nat → List (Stretch α) → PaletteSet α → Learner α γ → m (PaletteSet α × Learner α γ)
  | _, [], s, l => pure (s, l)
  | index, x :: blocks, s, l => do
    let (e, s, l) := finalBlock pb x.rates s l
    tell (.refined index x.done x.total e (measuredBest l s))
    finalFrom tell pb (index + 1) blocks s l

/-- The phase of blocks without reseeding (`final_phase`). -/
@[specialize] def finalPhase (tell : Moment α → m Unit) (pb : Problem α) (blocks : List (Stretch α)) (s : PaletteSet α)
    (l : Learner α γ) : m (PaletteSet α × Learner α γ) := do
  let (s, l) ← finalFrom tell pb 0 blocks s { l with phase := .annealing }
  pure (s, { l with phase := .converged })

end Learner

end Tessera
