import Mathlib
import Tessera.Proofs.Steps
import Tessera.Run.Basic
/-!
# Palette sets that a run reaches

`Plan.Reaches` says once what a run can do to its palettes: start them, move a colour toward a sample, add a slot, put a
colour of the image into a slot, recentre, reduce and pad. `run_reached` says that a run does nothing else, whoever watches
it and whenever it is stopped: every set that it reports, keeps as its best, tells of or composes is reached. An invariant
of runs is then an induction over `Plan.Reaches`.
-/

namespace Tessera

variable {α γ : Type} [Scalar α] [OrderSource γ]

namespace Plan

/-- The rates at which a run moves colours. -/
def IsRate (p : Plan α) (rate : α) : Prop :=
  rate ∈ p.growRates ∨ (∃ rates ∈ p.replaceRates, rate ∈ rates) ∨ ∃ x ∈ p.finalRates, rate ∈ x.rates

/-- The palette sets that a run can come to, step by step. -/
inductive Reaches (p : Plan α) : PaletteSet α → Prop where
  | start : Reaches p p.start
  | moved {s : PaletteSet α} {x : Sample} {rate : α} (q : Nat) : Reaches p s → x ∈ p.tiles.samples → p.IsRate rate →
      Reaches p (Learn.moveIn s q (Rgb.ofBytes x.color) rate)
  | seeded {s : PaletteSet α} : Reaches p s → s.slots < p.settings.colorsPerPalette →
      Reaches p (Learner.seeded p.tiles s)
  | reseeded {s : PaletteSet α} (q slot : Nat) (c : Rgb UInt8) : Reaches p s →
      Reaches p (s.setColor q slot (Rgb.ofBytes c))
  | recentred {s : PaletteSet α} : Reaches p s → Reaches p (Depth.recenter p.tiles s)
  | reduced {s : PaletteSet α} : Reaches p s → Reaches p (Depth.reduce p.settings.bitsPerChannel s)
  | padded {s : PaletteSet α} : Reaches p s → Reaches p (s.padded p.settings.colorsPerPalette)

end Plan

/-- The best set of a learner, if there is one, has a property. -/
def Learner.Keeps (I : PaletteSet α → Prop) (l : Learner α γ) : Prop := ∀ b, l.best = some b → I b.set

/-! ## Learners -/

namespace Learner

variable {I : PaletteSet α → Prop} (pb : Problem α) (l : Learner α γ)

theorem run_sameShape (s : PaletteSet α) (rates : List α) : s.SameShape (l.run pb s rates).1 := Learn.run_sameShape ..

variable {l}

omit [OrderSource γ] in
theorem Keeps.checkpoint (hl : l.Keeps I) {s : PaletteSet α} (hs : I s) : (l.checkpoint pb s).2.Keeps I := by
  intro b hb
  change (if l.beats (error pb s) then some ⟨s, error pb s⟩ else l.best) = some b at hb
  split at hb
  · cases hb; exact hs
  · exact hl b hb

omit [Scalar α] [OrderSource γ] in
theorem Keeps.bestOr (hl : l.Keeps I) {s : PaletteSet α} (hs : I s) : I (l.bestOr s) := by
  rw [Learner.bestOr]
  cases hb : l.best with
  | none => exact hs
  | some b => exact hl b hb

omit [OrderSource γ] in
theorem Keeps.measuredBest (hl : l.Keeps I) {s : PaletteSet α} (hs : I s) : I (measuredBest l s).set := by
  rw [Learner.measuredBest]
  cases hb : l.best with
  | none => exact hs
  | some b => exact hl b hb

end Learner

/-! ## Phases -/

namespace Plan

variable {p : Plan α} {l : Learner α γ} {s : PaletteSet α} {tell : Moment α → Job α Unit}

theorem Reaches.run (hs : p.Reaches s) {rates : List α} (hrates : ∀ rate ∈ rates, p.IsRate rate) :
    p.Reaches (l.run p.problem s rates).1 := by
  refine Learn.run_induct p.tiles _ hs fun t q x rate hx hrate ht => .moved q ht hx (hrates rate ?_)
  obtain ⟨⟨i, r⟩, hstep, rfl⟩ := List.mem_map.1 hrate
  exact (List.of_mem_zip hstep).2

theorem Reaches.replace (hs : p.Reaches s) (rule : ReseedRule α) (counts : Reseeds) :
    p.Reaches (Reseed.replace rule p.tiles ⟨s, counts⟩).set :=
  Reseed.replace_induct (fun _ q slot c h => .reseeded q slot c h) hs rule p.tiles

/-- A grown set has one slot more, and goes on from a seeded set. -/
theorem Reaches.growOne (hs : p.Reaches s) (hl : l.Keeps p.Reaches) (hslots : s.slots < p.settings.colorsPerPalette)
    {rates : List α} (hrates : ∀ rate ∈ rates, p.IsRate rate) :
    p.Reaches (l.growOne p.problem s rates).set ∧ (l.growOne p.problem s rates).set.slots = s.slots + 1 ∧
      (l.growOne p.problem s rates).learner.Keeps p.Reaches ∧
      ∀ m, (l.growOne p.problem s rates).moment = some m → m.sets = [] := by
  have hseeded := Reaches.seeded hs hslots
  simp only [Learner.growOne, Learner.judge]
  split
  · refine ⟨hseeded, rfl, hl, ?_⟩
    rintro m ⟨⟩
    rfl
  · refine ⟨hseeded.run hrates, ?_, hl, nofun⟩
    rw [(Learner.run_sameShape ..).slots_eq]
    rfl

theorem Reaches.correctOnce (hs : p.Reaches s) : p.Reaches (Depth.correctOnce p.settings.bitsPerChannel p.tiles s) := by
  rw [Depth.correctOnce]
  split
  · exact .reduced hs
  · exact .reduced (.recentred hs)

variable (htell : ∀ m : Moment α, (∀ s ∈ m.sets, p.Reaches s) → Job.Yields p.Reaches (tell m) fun _ => True)
include htell

theorem growBy_yields {rates : List α} (hrates : ∀ rate ∈ rates, p.IsRate rate) (n : Nat) (hs : p.Reaches s)
    (hl : l.Keeps p.Reaches) (hn : n = 0 ∨ s.slots + n ≤ p.settings.colorsPerPalette) :
    Job.Yields p.Reaches (Learner.growBy tell p.problem rates n s l)
      fun r => p.Reaches r.1 ∧ r.2.Keeps p.Reaches := by
  induction n generalizing s l with
  | zero => exact .pure ⟨hs, hl⟩
  | succ n ih =>
    obtain ⟨hset, hslots, hlearner, hmoment⟩ := hs.growOne hl (by omega) hrates
    have hrest : Job.Yields p.Reaches (do
        tell (.grown (l.growOne p.problem s rates).set)
        Learner.growBy tell p.problem rates n (l.growOne p.problem s rates).set (l.growOne p.problem s rates).learner)
        fun r => p.Reaches r.1 ∧ r.2.Keeps p.Reaches :=
      .bind (htell _ (List.forall_mem_singleton.2 hset)) fun _ _ => ih hset hlearner (by omega)
    rw [Learner.growBy]
    cases hm : (l.growOne p.problem s rates).moment with
    | none => exact hrest
    | some m => exact .bind (htell m (by rw [hmoment m hm]; nofun)) fun _ _ => hrest

theorem replaceFrom_yields (rule : ReseedRule α) (count : Nat) {blocks : List (List α)}
    (hrates : ∀ rates ∈ blocks, ∀ rate ∈ rates, p.IsRate rate) (index : Nat) {w : Learner.Work α γ}
    (hs : p.Reaches w.set) (hl : w.learner.Keeps p.Reaches) :
    Job.Yields p.Reaches (Learner.replaceFrom tell p.problem rule count index blocks w)
      fun r => p.Reaches r.set ∧ r.learner.Keeps p.Reaches := by
  induction blocks generalizing index w with
  | nil => exact .pure ⟨hs, hl⟩
  | cons rates blocks ih =>
    have hset : p.Reaches (Learner.replaceBlock p.problem rule rates w).2.set :=
      (hs.replace rule w.counts).run (hrates rates List.mem_cons_self)
    have hlearner : (Learner.replaceBlock p.problem rule rates w).2.learner.Keeps p.Reaches :=
      Learner.Keeps.checkpoint _ hl hset
    rw [Learner.replaceFrom]
    exact .bind (htell _ (List.forall_mem_singleton.2 (hlearner.measuredBest hset))) fun _ _ =>
      ih (fun r hr => hrates r (List.mem_cons_of_mem _ hr)) (index + 1) hset hlearner

theorem finalFrom_yields {blocks : List (Stretch α)} (hrates : ∀ x ∈ blocks, ∀ rate ∈ x.rates, p.IsRate rate)
    (index : Nat) (hs : p.Reaches s) (hl : l.Keeps p.Reaches) :
    Job.Yields p.Reaches (Learner.finalFrom tell p.problem index blocks s l)
      fun r => p.Reaches r.1 ∧ r.2.Keeps p.Reaches := by
  induction blocks generalizing index s l with
  | nil => exact .pure ⟨hs, hl⟩
  | cons x blocks ih =>
    have hset : p.Reaches (Learner.finalBlock p.problem x.rates s l).2.1 := hs.run (hrates x List.mem_cons_self)
    have hlearner : (Learner.finalBlock p.problem x.rates s l).2.2.Keeps p.Reaches :=
      Learner.Keeps.checkpoint _ hl hset
    rw [Learner.finalFrom]
    exact .bind (htell _ (List.forall_mem_singleton.2 (hlearner.measuredBest hset))) fun _ _ =>
      ih (fun y hy => hrates y (List.mem_cons_of_mem _ hy)) (index + 1) hset hlearner

theorem correctFrom_yields (n index : Nat) (hs : p.Reaches s) :
    Job.Yields p.Reaches (Depth.correctFrom tell p.settings.bitsPerChannel p.tiles n index s) p.Reaches := by
  induction n generalizing index s with
  | zero => exact .pure hs
  | succ n ih =>
    rw [Depth.correctFrom]
    exact .bind (htell _ (List.forall_mem_singleton.2 hs.correctOnce)) fun _ _ => ih (index + 1) hs.correctOnce

omit htell

/-! ## Stages -/

variable (p) (a : Audience α)

theorem tell_yields (m : Moment α) (hm : ∀ s ∈ m.sets, p.Reaches s) :
    Job.Yields p.Reaches (p.tell a m) fun _ => True := by
  have hreport : ∀ percent stage s, p.Reaches s → Job.Yields p.Reaches (p.report a percent stage s) fun _ => True :=
    fun percent stage s hs => Job.report_yields _ _ percent stage hs
  refine .bind (Job.note_yields fun m' h => by cases h; exact hm) fun _ _ => ?_
  cases m with
  | rejected => exact .pure trivial
  | grown s => exact hreport _ _ _ (hm s List.mem_cons_self)
  | replaced index count e best => exact hreport _ _ _ (hm best.set List.mem_cons_self)
  | refined index done total e best => exact hreport _ _ _ (hm best.set List.mem_cons_self)
  | corrected index s => exact hreport _ _ _ (hm s List.mem_cons_self)

theorem growStage_yields (hs : p.Reaches s) (hl : l.Keeps p.Reaches) :
    Job.Yields p.Reaches (p.growStage a l s) fun r => p.Reaches r.1 ∧ r.2.Keeps p.Reaches := by
  refine .bind (growBy_yields (p.tell_yields a) (fun rate h => .inl h) _ hs hl (by omega)) fun r hr => ?_
  refine .bind (Job.report_yields _ _ _ _ hr.1) fun _ _ => .bind (Job.note_yields nofun) fun _ _ => .pure hr

theorem replaceStage_yields (hs : p.Reaches s) (hl : l.Keeps p.Reaches) :
    Job.Yields p.Reaches (p.replaceStage a l s) fun r => p.Reaches r.1 ∧ r.2.Keeps p.Reaches := by
  refine .bind (replaceFrom_yields (p.tell_yields a) _ _ (fun rates h rate hr => .inr (.inl ⟨rates, h, hr⟩)) 0 hs hl)
    fun w hw => .bind (Job.note_yields nofun) fun _ _ => .pure ⟨?_, hw.2⟩
  have hbest := hw.2.bestOr hw.1
  split
  · exact hbest
  · exact .reduced hbest

theorem finalStage_yields (hs : p.Reaches s) (hl : l.Keeps p.Reaches) :
    Job.Yields p.Reaches (p.finalStage a l s) fun r => p.Reaches r.1 ∧ r.2.Keeps p.Reaches := by
  have hphase : Job.Yields p.Reaches (Learner.finalPhase (p.tell a) p.problem p.finalRates s l)
      fun r => p.Reaches r.1 ∧ r.2.Keeps p.Reaches :=
    .bind (finalFrom_yields (p.tell_yields a) (fun x h rate hr => .inr (.inr ⟨x, h, hr⟩)) 0 hs hl) fun r hr => .pure hr
  exact .bind hphase fun r hr => .pure ⟨hr.2.bestOr hr.1, hr.2⟩

theorem depthStage_yields (hs : p.Reaches s) : Job.Yields p.Reaches (p.depthStage a s) p.Reaches := by
  rw [depthStage]
  split
  · exact .bind (Job.report_yields _ _ _ _ (.reduced hs)) fun _ _ => .pure (.reduced hs)
  · exact correctFrom_yields (p.tell_yields a) _ _ (.reduced hs)

theorem optimise_yields (hl : l.Keeps p.Reaches) :
    Job.Yields p.Reaches (p.optimise a l) fun r => p.Reaches r.1 ∧ r.2.Keeps p.Reaches := by
  refine .bind (Job.report_yields _ _ _ _ .start) fun _ _ => ?_
  refine .bind (p.growStage_yields a .start hl) fun r hr => ?_
  refine .bind (p.replaceStage_yields a hr.1 hr.2) fun r hr => ?_
  refine .bind (p.finalStage_yields a hr.1 hr.2) fun r hr => ?_
  exact .bind (p.depthStage_yields a hr.1) fun s hs => .pure ⟨hs, hr.2⟩

end Plan

/-! ## Whole runs -/

/-- Everything that comes of a run is made of sets that it reaches. -/
structure Outcome.Reached (p : Plan α) (o : Outcome α) : Prop where
  journal : o.journal.Holds p.Reaches
  composition : ∃ s cancelled, p.Reaches s ∧ o.composition = p.compose s cancelled

namespace Plan

variable (p : Plan α) (a : Audience α)

theorem sizes_ne_moment (m : Moment α) : p.sizes ≠ .moment m := nofun

theorem runIdle_reached : (p.runIdle a).Reached p := by
  have hs : p.Reaches (Depth.reduce p.settings.bitsPerChannel (p.start.padded p.settings.colorsPerPalette)) :=
    .reduced (.padded .start)
  exact ⟨(Journal.Holds.empty.note fun m h => absurd h (p.sizes_ne_moment m)).report hs _ _ _, _, _, hs, rfl⟩

theorem runWith_reached (source : γ) : (p.runWith a source).Reached p := by
  rw [runWith]
  have hstart : (Learner.start (Shuffler.start p.tiles.samples.size source).1
      (Shuffler.start p.tiles.samples.size source).2 : Learner α γ).Keeps p.Reaches := nofun
  have hrun := p.optimise_yields a hstart (Journal.empty.note p.sizes)
    (Journal.Holds.empty.note fun m h => absurd h (p.sizes_ne_moment m))
  dsimp only
  generalize StateT.run (ExceptT.run (p.optimise a (Learner.start (Shuffler.start p.tiles.samples.size source).1
    (Shuffler.start p.tiles.samples.size source).2))) (Journal.empty.note p.sizes) = r at hrun ⊢
  obtain ⟨e | ⟨s, l⟩, j⟩ := r
  · exact ⟨hrun.1.note nofun, _, _, hrun.2, rfl⟩
  · exact ⟨(hrun.1.report hrun.2.1 _ _ _).note nofun, _, _, hrun.2.1, rfl⟩

/-- **Runs reach what they report.** Whoever watches, and whenever the run is stopped, all its sets are reached. -/
theorem run_reached (source : γ) : (p.run a source).Reached p := by
  rw [run]
  split
  · exact p.runIdle_reached a
  · exact p.runWith_reached a source

end Plan

end Tessera
