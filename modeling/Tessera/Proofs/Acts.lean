import Mathlib
import Tessera.Depth
import Tessera.Proofs.Shuffling
/-!
# Learning, act by act

All that learning does is a sequence of acts on the palettes at work and the learner: samples are drawn and applied, the
palettes are changed in some other way, measured, grown or put back to the best so far (`Learner.Act`). In every lawful
monad a phase tells its moments, one after the other, and ends where its acts end, so a listener changes nothing but how
far the phase comes (`growBy_eq`, `replaceFrom_eq`, `finalFrom_eq`, `Depth.correctFrom_eq`). What an act list measures is
said by `Work.measured`. Which samples it applies is said by a ledger, in which every sample is written down when it is
applied (`Ledger.performAll_eq`).
-/

namespace Tessera

namespace Learner

variable {α γ : Type}

/-- One act of learning. -/
inductive Act (α : Type) where
  /-- Samples are drawn, one for each rate, and applied in order. -/
  | draw (rates : List α)
  /-- The palettes are reseeded, reduced or taken from elsewhere. -/
  | change (f : Reseed.Changed α → Reseed.Changed α)
  /-- The palettes are measured at a checkpoint. -/
  | measure
  /-- A seeded slot is added and settled with samples, one for each rate. -/
  | grow (rates : List α)
  /-- The best palettes so far are taken up again. -/
  | restore
  /-- Another phase begins. -/
  | turn (phase : Phase)

/-- The rates of the samples of an act. -/
def Act.rates : Act α → List α
  | .draw rates => rates
  | .grow rates => rates
  | _ => []

/-- The acts of a block that begins with a change. -/
def replaceActs (f : Reseed.Changed α → Reseed.Changed α) (rates : List α) : List (Act α) :=
  [.change f, .draw rates, .measure]

/-- The acts of a block without reseeding. -/
def finalActs (rates : List α) : List (Act α) := [.draw rates, .measure]

variable [Scalar α] [OrderSource γ]

/-- The samples that a learner draws for some rates, each with its rate. -/
def drawn (l : Learner α γ) (rates : List α) : List (Nat × α) := (l.shuffler.take l.source rates.length).1.zip rates

/-- A run applies the samples that it draws. -/
theorem run_fst (pb : Problem α) (l : Learner α γ) (s : PaletteSet α) (rates : List α) :
    (l.run pb s rates).1 = Learn.run pb.tiles s (l.drawn rates) := rfl

/-! ## Performing -/

namespace Work

/-- Performs one act. -/
def perform (pb : Problem α) (w : Work α γ) : Act α → Work α γ
  | .draw rates => ⟨(w.learner.run pb w.set rates).1, (w.learner.run pb w.set rates).2, w.counts⟩
  | .change f => ⟨(f ⟨w.set, w.counts⟩).set, w.learner, (f ⟨w.set, w.counts⟩).counts⟩
  | .measure => { w with learner := (w.learner.checkpoint pb w.set).2 }
  | .grow rates => ⟨(w.learner.growOne pb w.set rates).set, (w.learner.growOne pb w.set rates).learner, w.counts⟩
  | .restore => { w with set := w.learner.bestOr w.set }
  | .turn phase => { w with learner := { w.learner with phase } }

/-- Performs acts in order. -/
def performAll (pb : Problem α) (w : Work α γ) (acts : List (Act α)) : Work α γ := acts.foldl (perform pb) w

/-- The palettes that acts measure, in order, as they are at that time. -/
def measured (pb : Problem α) (w : Work α γ) : List (Act α) → List (PaletteSet α)
  | [] => []
  | .measure :: acts => w.set :: measured pb (w.perform pb .measure) acts
  | a :: acts => measured pb (w.perform pb a) acts

/-- The samples that the learner draws for acts, in order, each with its rate. -/
def applied (pb : Problem α) (w : Work α γ) : List (Act α) → List (Nat × α)
  | [] => []
  | a :: acts => w.learner.drawn a.rates ++ applied pb (w.perform pb a) acts

variable (pb : Problem α) (w : Work α γ)

@[simp] theorem performAll_nil : w.performAll pb [] = w := rfl

@[simp] theorem performAll_cons (a : Act α) (acts : List (Act α)) :
    w.performAll pb (a :: acts) = (w.perform pb a).performAll pb acts := rfl

theorem performAll_append (as bs : List (Act α)) :
    w.performAll pb (as ++ bs) = (w.performAll pb as).performAll pb bs := List.foldl_append

theorem measured_append (as bs : List (Act α)) :
    w.measured pb (as ++ bs) = w.measured pb as ++ (w.performAll pb as).measured pb bs := by
  induction as generalizing w with
  | nil => rfl
  | cons a as ih => cases a <;> simp [measured, ih]

/-- Only a change counts reseeds. -/
theorem performAll_counts (acts : List (Act α)) (h : ∀ f, .change f ∉ acts) : (w.performAll pb acts).counts = w.counts := by
  induction acts generalizing w with
  | nil => rfl
  | cons a acts ih =>
    rw [performAll_cons, ih _ fun f hf => h f (List.mem_cons_of_mem a hf)]
    cases a with
    | change f => exact absurd List.mem_cons_self (h f)
    | _ => rfl

/-! ## The samples that acts draw -/

/-- An act moves the walk through the samples by as many as it applies, and by nothing else. -/
theorem perform_walk (a : Act α) :
    ((w.perform pb a).learner.shuffler, (w.perform pb a).learner.source) =
      (w.learner.shuffler.take w.learner.source a.rates.length).2 := by
  have hnone : w.learner.shuffler.take w.learner.source 0 = ([], w.learner.shuffler, w.learner.source) := by
    simp [Shuffler.take]
  cases a with
  | draw rates => rfl
  | grow rates =>
    simp only [perform, growOne, judge]
    split <;> rfl
  | change f => exact (congrArg Prod.snd hnone).symm
  | measure => exact (congrArg Prod.snd hnone).symm
  | restore => exact (congrArg Prod.snd hnone).symm
  | turn phase => exact (congrArg Prod.snd hnone).symm

theorem perform_shuffler (a : Act α) :
    (w.perform pb a).learner.shuffler = (w.learner.shuffler.take w.learner.source a.rates.length).2.1 :=
  congrArg Prod.fst (perform_walk pb w a)

theorem perform_source (a : Act α) :
    (w.perform pb a).learner.source = (w.learner.shuffler.take w.learner.source a.rates.length).2.2 :=
  congrArg Prod.snd (perform_walk pb w a)

theorem perform_size (h : 0 < w.learner.shuffler.size) (a : Act α) :
    (w.perform pb a).learner.shuffler.size = w.learner.shuffler.size := by
  rw [perform_shuffler, Shuffler.take_size _ _ h]

/-- However acts divide the samples among them, they draw those of one walk with all their rates. -/
theorem applied_eq_drawn (h : 0 < w.learner.shuffler.size) (acts : List (Act α)) :
    w.applied pb acts = w.learner.drawn (acts.flatMap Act.rates) := by
  induction acts generalizing w with
  | nil => simp [applied, drawn]
  | cons a acts ih =>
    have hlen := Shuffler.take_length w.learner.shuffler w.learner.source h a.rates.length
    rw [applied, ih (w.perform pb a) (by rw [perform_size pb w h]; exact h)]
    simp only [drawn, perform_shuffler, perform_source, List.flatMap_cons, List.length_append,
      Shuffler.take_add _ _ h]
    exact (List.zip_append hlen).symm

/-- After acts the walk stands behind all their samples. -/
theorem performAll_walk (h : 0 < w.learner.shuffler.size) (acts : List (Act α)) :
    ((w.performAll pb acts).learner.shuffler, (w.performAll pb acts).learner.source) =
      (w.learner.shuffler.take w.learner.source (acts.flatMap Act.rates).length).2 := by
  induction acts generalizing w with
  | nil => simp [Shuffler.take]
  | cons a acts ih =>
    rw [performAll_cons, ih (w.perform pb a) (by rw [perform_size pb w h]; exact h)]
    simp only [perform_shuffler, perform_source, List.flatMap_cons, List.length_append, Shuffler.take_add _ _ h]

end Work

end Learner

/-! ## Writing down what is applied -/

namespace Learn

variable {α : Type} [Scalar α]

/-- Applies a sample and writes it down. -/
def moveNoted (ts : TileSet) (x : Cached α × List (Nat × α)) (step : Nat × α) : Cached α × List (Nat × α) :=
  (moveCachedAt ts x.1 step.1 step.2, x.2 ++ [step])

/-- Applies samples in order, starting with nothing remembered, and writes down each of them. -/
def runNoted (ts : TileSet) (s : PaletteSet α) (noted steps : List (Nat × α)) : PaletteSet α × List (Nat × α) :=
  let x := steps.foldl (moveNoted ts) (⟨s, Cache.empty ts.tiles.length s.size⟩, noted)
  (x.1.set, x.2)

theorem foldl_moveNoted (ts : TileSet) (x : Cached α) (noted steps : List (Nat × α)) :
    steps.foldl (moveNoted ts) (x, noted) =
      (steps.foldl (fun x step => moveCachedAt ts x step.1 step.2) x, noted ++ steps) := by
  induction steps generalizing x noted with
  | nil => simp
  | cons step steps ih => simp [moveNoted, ih]

/-- A run makes one move for each of its samples, with its rate. -/
theorem runNoted_eq (ts : TileSet) (s : PaletteSet α) (noted steps : List (Nat × α)) :
    runNoted ts s noted steps = (run ts s steps, noted ++ steps) := by
  rw [runNoted, foldl_moveNoted]
  rfl

end Learn

namespace Learner

variable {α γ : Type} [Scalar α] [OrderSource γ]

/-- The palettes at work and the learner, with the samples that have been applied so far. -/
structure Ledger (α γ : Type) where
  work : Work α γ
  updates : List (Nat × α)

namespace Ledger

variable (pb : Problem α)

/-- Performs one act. Every sample is written down when it is applied. -/
def perform (x : Ledger α γ) : Act α → Ledger α γ
  | .draw rates =>
    let y := Learn.runNoted pb.tiles x.work.set x.updates (x.work.learner.drawn rates)
    ⟨⟨y.1, (x.work.learner.run pb x.work.set rates).2, x.work.counts⟩, y.2⟩
  | .grow rates =>
    let start := seeded pb.tiles x.work.set
    let y := Learn.runNoted pb.tiles start x.updates (x.work.learner.drawn rates)
    let g := (x.work.learner.run pb start rates).2.judge start y.1 (error pb start) (error pb y.1)
    ⟨⟨g.set, g.learner, x.work.counts⟩, y.2⟩
  | a => ⟨x.work.perform pb a, x.updates⟩

/-- Performs acts in order. -/
def performAll (x : Ledger α γ) (acts : List (Act α)) : Ledger α γ := acts.foldl (perform pb) x

/-- An act applies the samples that are drawn for it, and no others. -/
theorem perform_eq (x : Ledger α γ) (a : Act α) :
    x.perform pb a = ⟨x.work.perform pb a, x.updates ++ x.work.learner.drawn a.rates⟩ := by
  have hnone : x.work.learner.drawn [] = [] := List.zip_nil_right
  cases a with
  | draw rates => simp only [perform, Learn.runNoted_eq, Work.perform, run_fst, Act.rates]
  | grow rates => simp only [perform, Learn.runNoted_eq, Work.perform, growOne, run_fst, Act.rates]
  | change f => simp only [perform, Act.rates, hnone, List.append_nil]
  | measure => simp only [perform, Act.rates, hnone, List.append_nil]
  | restore => simp only [perform, Act.rates, hnone, List.append_nil]
  | turn phase => simp only [perform, Act.rates, hnone, List.append_nil]

/-- **What acts apply.** Acts come to the same palettes whether or not their samples are written down, and they make one move
for each sample that is drawn for them, with its rate. -/
theorem performAll_eq (w : Work α γ) (noted : List (Nat × α)) (acts : List (Act α)) :
    performAll pb ⟨w, noted⟩ acts = ⟨w.performAll pb acts, noted ++ w.applied pb acts⟩ := by
  induction acts generalizing w noted with
  | nil => simp [performAll, Work.applied]
  | cons a acts ih =>
    rw [performAll, List.foldl_cons, perform_eq]
    exact (ih _ _).trans (by rw [Work.performAll_cons, Work.applied, List.append_assoc])

end Ledger

/-! ## Phases are acts that are told -/

section Growth

variable (pb : Problem α) (rates : List α)

/-- What growing by some slots tells. -/
def growMoments : Nat → PaletteSet α → Learner α γ → List (Moment α)
  | 0, _, _ => []
  | n + 1, s, l => (l.growOne pb s rates).moment.toList ++ .grown (l.growOne pb s rates).set ::
      growMoments n (l.growOne pb s rates).set (l.growOne pb s rates).learner

/-- Growing tells its moments and comes to where its acts come to. -/
theorem growBy_eq {m : Type → Type} [Monad m] [LawfulMonad m] (tell : Moment α → m Unit) (n : Nat) (w : Work α γ) :
    growBy tell pb rates n w.set w.learner = (do
      forM (growMoments pb rates n w.set w.learner) tell
      pure ((w.performAll pb (List.replicate n (.grow rates))).set,
        (w.performAll pb (List.replicate n (.grow rates))).learner)) := by
  induction n generalizing w with
  | zero => simp [growBy, growMoments]
  | succ n ih =>
    have hrest := ih (w.perform pb (.grow rates))
    simp only [Work.perform] at hrest
    rw [growBy, growMoments, List.replicate_succ]
    dsimp only
    rw [hrest]
    cases (w.learner.growOne pb w.set rates).moment with
    | none => simp [Work.perform]
    | some x => simp [Work.perform]

end Growth

section Blocks

variable (pb : Problem α)

/-- What blocks with reseeding tell. -/
def replaceMoments (rule : ReseedRule α) (count : Nat) : Nat → List (List α) → Work α γ → List (Moment α)
  | _, [], _ => []
  | index, rates :: blocks, w =>
    .replaced index count (replaceBlock pb rule rates w).1
      (measuredBest (replaceBlock pb rule rates w).2.learner (replaceBlock pb rule rates w).2.set) ::
      replaceMoments rule count (index + 1) blocks (replaceBlock pb rule rates w).2

/-- What blocks without reseeding tell. -/
def finalMoments : Nat → List (Stretch α) → PaletteSet α → Learner α γ → List (Moment α)
  | _, [], _, _ => []
  | index, x :: blocks, s, l =>
    .refined index x.done x.total (finalBlock pb x.rates s l).1
      (measuredBest (finalBlock pb x.rates s l).2.2 (finalBlock pb x.rates s l).2.1) ::
      finalMoments (index + 1) blocks (finalBlock pb x.rates s l).2.1 (finalBlock pb x.rates s l).2.2

theorem performAll_replaceActs (rule : ReseedRule α) (rates : List α) (w : Work α γ) :
    w.performAll pb (replaceActs (Reseed.replace rule pb.tiles) rates) = (replaceBlock pb rule rates w).2 := rfl

variable {m : Type → Type} [Monad m] [LawfulMonad m] (tell : Moment α → m Unit)

/-- Blocks with reseeding tell their moments and come to where their acts come to. -/
theorem replaceFrom_eq (rule : ReseedRule α) (count index : Nat) (blocks : List (List α)) (w : Work α γ) :
    replaceFrom tell pb rule count index blocks w = (do
      forM (replaceMoments pb rule count index blocks w) tell
      pure (w.performAll pb (blocks.flatMap (replaceActs (Reseed.replace rule pb.tiles))))) := by
  induction blocks generalizing index w with
  | nil => simp [replaceFrom, replaceMoments]
  | cons rates blocks ih =>
    rw [replaceFrom, replaceMoments, List.flatMap_cons, Work.performAll_append, performAll_replaceActs]
    dsimp only
    rw [ih]
    simp

/-- Blocks without reseeding tell their moments and come to where their acts come to. -/
theorem finalFrom_eq (index : Nat) (blocks : List (Stretch α)) (w : Work α γ) :
    finalFrom tell pb index blocks w.set w.learner = (do
      forM (finalMoments pb index blocks w.set w.learner) tell
      pure ((w.performAll pb (blocks.flatMap fun x => finalActs x.rates)).set,
        (w.performAll pb (blocks.flatMap fun x => finalActs x.rates)).learner)) := by
  induction blocks generalizing index w with
  | nil => simp [finalFrom, finalMoments]
  | cons x blocks ih =>
    have hrest := ih (index + 1) (w.performAll pb (finalActs x.rates))
    rw [finalFrom, finalMoments, List.flatMap_cons, Work.performAll_append]
    have hset : (w.performAll pb (finalActs x.rates)).set = (finalBlock pb x.rates w.set w.learner).2.1 := rfl
    have hlearner : (w.performAll pb (finalActs x.rates)).learner = (finalBlock pb x.rates w.set w.learner).2.2 := rfl
    rw [hset, hlearner] at hrest
    dsimp only
    rw [hrest]
    simp

/-- The phase of blocks with reseeding. -/
theorem replacePhase_eq (rule : ReseedRule α) (blocks : List (List α)) (w : Work α γ) :
    replacePhase tell pb rule blocks w = (do
      forM (replaceMoments pb rule blocks.length 0 blocks (w.perform pb (.turn .annealing))) tell
      pure (w.performAll pb (.turn .annealing :: blocks.flatMap (replaceActs (Reseed.replace rule pb.tiles))))) :=
  replaceFrom_eq pb tell rule blocks.length 0 blocks (w.perform pb (.turn .annealing))

/-- The phase of blocks without reseeding. -/
theorem finalPhase_eq (blocks : List (Stretch α)) (w : Work α γ) :
    finalPhase tell pb blocks w.set w.learner = (do
      forM (finalMoments pb 0 blocks w.set { w.learner with phase := .annealing }) tell
      pure ((w.performAll pb (.turn .annealing :: blocks.flatMap (fun x => finalActs x.rates) ++ [.turn .converged])).set,
        (w.performAll pb (.turn .annealing :: blocks.flatMap (fun x => finalActs x.rates) ++ [.turn .converged])).learner)) := by
  have hblocks := finalFrom_eq pb tell 0 blocks (w.perform pb (.turn .annealing))
  simp only [Work.perform] at hblocks
  rw [finalPhase, hblocks]
  simp [Work.perform, Work.performAll_append]

end Blocks

end Learner

namespace Depth

variable {α : Type} [Scalar α] (bits : Nat) (ts : TileSet)

/-- What corrective passes tell. -/
def correctMoments : Nat → Nat → PaletteSet α → List (Moment α)
  | 0, _, _ => []
  | n + 1, i, s => .corrected i (correctOnce bits ts s) :: correctMoments n (i + 1) (correctOnce bits ts s)

/-- Corrective passes tell their moments and correct as often as they are many. -/
theorem correctFrom_eq {m : Type → Type} [Monad m] [LawfulMonad m] (tell : Moment α → m Unit) (n i : Nat)
    (s : PaletteSet α) :
    correctFrom tell bits ts n i s = (do
      forM (correctMoments bits ts n i s) tell
      pure ((correctOnce bits ts)^[n] s)) := by
  induction n generalizing i s with
  | zero => simp [correctFrom, correctMoments]
  | succ n ih =>
    rw [correctFrom, correctMoments, ih]
    simp

end Depth

end Tessera
