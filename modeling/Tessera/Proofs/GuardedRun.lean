import Mathlib
import Tessera.Proofs.Budget
import Tessera.Proofs.GuardedPalettes
import Tessera.Run.Basic
/-!
# Guarded runs

A run under guard is a job that can also be refused; what the journal has at that point stays (`Guarded.Task`). A task
follows a job when it is never refused, reports what the job reports, stops where the job stops and hands over what the job
hands over (`Guarded.Follows`). Stage by stage the guarded run follows the run, whatever the audience: one step of a phase
is a lemma of its own, and the phases follow by induction on their blocks. So a run comes to its outcome and no guard
refuses anything on the way (`Guarded.runIdle_eq_ok`, `Guarded.runWith_eq_ok`).
-/

namespace Tessera

/-- The samples of a plan can be counted in blocks: the numbers on the way are ordinary ones, and there is a last block. -/
structure Plan.Countable {α : Type} [Scalar α] (p : Plan α) : Prop where
  share_isFinite : Scalar.isFinite (if p.settings.dither = .slow
    then p.settings.fractionOfPixels * Scalar.ofInt p.tiles.samples.size / Scalar.ofNat 5
    else p.settings.fractionOfPixels * Scalar.ofInt p.tiles.samples.size) = true
  total_isFinite : Scalar.isFinite (Scalar.ofInt p.finalTotal : α) = true
  block_isFinite : Scalar.isFinite (Scalar.ofInt (max 1 p.block : Int) : α) = true
  count_isFinite : Scalar.isFinite (Scalar.ofInt p.finalTotal / Scalar.ofInt (max 1 p.block : Int) : α) = true
  count_pos : 0 < (countBlocks α p.finalTotal p.block).toNat

/-- A plan that can be carried out: its tiles are sound and belong to its canvas, its k-means is lawful, there are palettes
and levels, and blocks can be counted. -/
structure Plan.Sound {α : Type} [Scalar α] (p : Plan α) : Prop where
  tiles : p.tiles.Sound
  means : p.means.Lawful
  length_tiles : p.tiles.tiles.length = p.canvas.tiling.tiles
  palettes_pos : 0 < p.settings.numPalettes
  bits_pos : 1 ≤ p.settings.bitsPerChannel
  countable : p.Countable

namespace Guarded

/-! ## Tasks -/

section Tasks

variable {α β δ : Type}

/-- A job that can be refused. -/
abbrev Task (α : Type) := ExceptT Error (Job α)

/-- What has to be there. -/
def need (x : Result β) : Task α β := ExceptT.mk (pure x)

/-- What is done as a job. -/
def act (x : Job α β) : Task α β := ExceptT.lift x

/-- A task does what a job does. The job hands over what has a property, or stops with palettes that can be used. -/
def Follows (x : Task α β) (y : Job α β) (Q : β → Prop) : Prop :=
  ∀ j : Journal α,
    StateT.run (ExceptT.run (ExceptT.run x)) j =
      ((StateT.run (ExceptT.run y) j).1.map Except.ok, (StateT.run (ExceptT.run y) j).2) ∧
    (∀ b, (StateT.run (ExceptT.run y) j).1 = .ok b → Q b) ∧
    ∀ e, (StateT.run (ExceptT.run y) j).1 = .error e → e.set.Usable

namespace Follows

variable {Q : β → Prop} {R : δ → Prop}

theorem pure {b : β} (h : Q b) : Follows (α := α) (pure b) (pure b) Q := by
  intro j
  refine ⟨rfl, ?_, ?_⟩
  · rintro c hc
    cases hc
    exact h
  · intro e he
    cases he

theorem need {x : Result β} {v : β} {f : β → Task α δ} {y : Job α δ} (hx : x = .ok v) (hf : Follows (f v) y R) :
    Follows (Guarded.need x >>= f) y R := by
  subst hx
  exact hf

/-- What follows one after the other follows as a whole. -/
theorem bind {x : Task α β} {y : Job α β} {f : β → Task α δ} {g : β → Job α δ} (hx : Follows x y Q)
    (hf : ∀ b, Q b → Follows (f b) (g b) R) : Follows (x >>= f) (y >>= g) R := by
  intro j
  obtain ⟨hrun, hok, herror⟩ := hx j
  have hleft : StateT.run (ExceptT.run (ExceptT.run (x >>= f))) j =
      match StateT.run (ExceptT.run (ExceptT.run x)) j with
      | (.ok (.ok b), next) => StateT.run (ExceptT.run (ExceptT.run (f b))) next
      | (.ok (.error e), next) => (.ok (.error e), next)
      | (.error e, next) => (.error e, next) := by
    rw [ExceptT.run_bind, Job.run_bind]
    rcases StateT.run (ExceptT.run (ExceptT.run x)) j with ⟨_ | _ | b, next⟩
    · rfl
    · rfl
    · rfl
  rw [hleft, hrun, Job.run_bind]
  generalize StateT.run (ExceptT.run y) j = r at hok herror ⊢
  obtain ⟨e | b, next⟩ := r
  · refine ⟨rfl, ?_, ?_⟩
    · intro b hb
      cases hb
    · rintro e' he
      cases he
      exact herror e rfl
  · exact hf b (hok b rfl) next

theorem note (n : Note α) : Follows (act (Job.note n)) (Job.note n) fun _ => True := by
  intro j
  refine ⟨rfl, fun _ _ => trivial, ?_⟩
  intro e he
  cases he

theorem report [Scalar α] (watch : Watch α) (preview : PaletteSet α → Option (Composition α)) (percent : α) (stage : Stage)
    {s : PaletteSet α} (hs : s.Usable) :
    Follows (act (Job.report watch (fun _ => preview s) percent stage s)) (Job.report watch preview percent stage s)
      fun _ => True := by
  intro j
  have hact : StateT.run (ExceptT.run (ExceptT.run (act (Job.report watch (fun _ => preview s) percent stage s)))) j =
      ((StateT.run (ExceptT.run (Job.report watch preview percent stage s)) j).1.map Except.ok,
        (StateT.run (ExceptT.run (Job.report watch preview percent stage s)) j).2) := by
    show StateT.run (ExceptT.run (Job.report watch preview percent stage s >>= fun b => Pure.pure (Except.ok b))) j = _
    rw [Job.run_bind]
    rcases StateT.run (ExceptT.run (Job.report watch preview percent stage s)) j with ⟨_ | b, next⟩
    · rfl
    · rfl
  refine ⟨hact, fun _ _ => trivial, ?_⟩
  intro e he
  rw [Job.run_report] at he
  dsimp only at he
  split at he
  · cases he
    exact hs
  · cases he

end Follows

end Tasks

variable {α γ : Type} [Scalar α] [OrderSource γ]

/-! ## Reports -/

/-- The composition of palettes, lengthened to the number of colours. -/
def composed (p : Plan α) (s : PaletteSet α) (cancelled : Bool) : Result (Composition α) := do
  let s ← padded s p.settings.colorsPerPalette
  compose p.settings.dithering p.canvas p.tiles s cancelled

/-- The composition for a report, when the audience asks for it. -/
def previewFor (p : Plan α) (a : Audience α) (s : PaletteSet α) : Result (Option (Composition α)) :=
  if a.preview then do
    let c ← composed p s false
    pure (some c)
  else pure none

/-- Reports to an audience. -/
def report (p : Plan α) (a : Audience α) (percent : α) (stage : Stage) (s : PaletteSet α) : Task α Unit := do
  let shown ← need (previewFor p a s)
  act (Job.report a.watch (fun _ => shown) percent stage s)

/-- The percentage when `num` of `den` steps between two percentages are done. -/
def percent (lo hi num den : Nat) : Result α := do
  let part ← quotient (Scalar.ofNat num) den
  pure (Scalar.ofNat lo + (Scalar.ofNat hi - Scalar.ofNat lo) * Scalar.clampUnit part)

/-- The number of blocks without reseeding. -/
def blockCount (p : Plan α) : Result Nat :=
  if Scalar.isFinite (Scalar.ofInt p.finalTotal : α) && Scalar.isFinite (Scalar.ofInt (max 1 p.block : Int) : α) &&
      Scalar.isFinite (Scalar.ofInt p.finalTotal / Scalar.ofInt (max 1 p.block : Int) : α) then
    pure (countBlocks α p.finalTotal p.block).toNat
  else refuse .overflow

/-- Tells a moment to an audience: a note for the log, and a report where a step is over. -/
def tell (p : Plan α) (a : Audience α) (m : Moment α) : Task α Unit := do
  act (Job.note (.moment m))
  match m with
  | .rejected .. => pure ()
  | .grown s => do
    let slots := p.settings.colorZero.initialSlots
    let x ← need (percent 0 Plan.growEnd (s.slots - slots) (max 1 (p.settings.colorsPerPalette - slots)))
    report p a x .grow s
  | .replaced index count _ best => do
    let x ← need (percent Plan.growEnd Plan.replaceEnd (index + 1) count)
    report p a x .replace best.set
  | .refined index _ _ _ best => do
    let count ← need (blockCount p)
    let x ← need (percent Plan.replaceEnd Plan.finalEnd (index + 1) count)
    report p a x .refine best.set
  | .corrected index s => do
    let x ← need (percent Plan.finalEnd Plan.allDone (index + 1) (Depth.defaultPasses + 1))
    report p a x .bitDepth s

section Reports

variable {p : Plan α} (a : Audience α) {s : PaletteSet α}

theorem composed_eq_ok (hp : p.Sound) (hs : s.Usable) (cancelled : Bool) :
    composed p s cancelled = .ok (p.compose s cancelled) := by
  obtain ⟨hpadded, husable⟩ := padded_eq_ok hs p.settings.colorsPerPalette
  rw [composed, hpadded, ok_bind]
  exact compose_eq_ok p.settings.dithering hp.tiles hp.length_tiles husable cancelled

theorem previewFor_eq_ok (hp : p.Sound) (hs : s.Usable) : previewFor p a s = .ok (p.previewFor a s) := by
  rw [previewFor, Plan.previewFor]
  split
  · rw [composed_eq_ok hp hs]
    rfl
  · rfl

theorem report_follows (hp : p.Sound) (hs : s.Usable) (x : α) (stage : Stage) :
    Follows (report p a x stage s) (p.report a x stage s) fun _ => True :=
  Follows.need (previewFor_eq_ok a hp hs) (Follows.report a.watch (p.previewFor a) x stage hs)

theorem percent_eq_ok (lo hi num : Nat) {den : Nat} (h : 0 < den) :
    percent lo hi num den = .ok (Plan.between lo hi num den : α) := by
  rw [percent, quotient_eq_ok _ h]
  rfl

theorem blockCount_eq_ok (h : p.Countable) : blockCount p = .ok (countBlocks α p.finalTotal p.block).toNat := by
  rw [blockCount, h.total_isFinite, h.block_isFinite, h.count_isFinite]
  rfl

/-- Told moments whose palettes can be used are told, when there are blocks to count. -/
theorem tell_follows (hp : p.Sound) (m : Moment α) (hsets : ∀ s ∈ m.sets, s.Usable)
    (hcount : ∀ index count e best, m = .replaced index count e best → 0 < count) :
    Follows (tell p a m) (p.tell a m) fun _ => True := by
  refine Follows.bind (Follows.note _) fun _ _ => ?_
  cases m with
  | rejected slots after before => exact Follows.pure trivial
  | grown s =>
    exact Follows.need (percent_eq_ok _ _ _ (by omega)) (report_follows a hp (hsets s (by simp [Moment.sets])) _ _)
  | replaced index count e best =>
    exact Follows.need (percent_eq_ok _ _ _ (hcount _ _ _ _ rfl))
      (report_follows a hp (hsets best.set (by simp [Moment.sets])) _ _)
  | refined index done total e best =>
    exact Follows.need (blockCount_eq_ok hp.countable) (Follows.need (percent_eq_ok _ _ _ hp.countable.count_pos)
      (report_follows a hp (hsets best.set (by simp [Moment.sets])) _ _))
  | corrected index s =>
    exact Follows.need (percent_eq_ok _ _ _ (by omega)) (report_follows a hp (hsets s (by simp [Moment.sets])) _ _)

end Reports

/-! ## Phases -/

/-- Adds `n` slots, one after the other. -/
def growBy (p : Plan α) (a : Audience α) (rates : List α) :
    Nat → PaletteSet α → Learner α γ → Task α (PaletteSet α × Learner α γ)
  | 0, s, l => pure (s, l)
  | n + 1, s, l => do
    let g ← need (growOne p.problem l s rates)
    g.moment.elim (pure ()) (tell p a)
    tell p a (.grown g.set)
    growBy p a rates n g.set g.learner

/-- One block with reseeding, and the best set after it. -/
def replaceBlock (p : Plan α) (rates : List α) (w : Learner.Work α γ) : Result (α × Learner.Work α γ × Measured α) := do
  let x ← replace p.reseedRule p.tiles ⟨w.set, w.counts⟩
  let moved ← run p.problem w.learner x.set rates
  let measured ← checkpoint p.problem moved.2 moved.1
  let kept ← best measured.2
  pure (measured.1, ⟨moved.1, measured.2, x.counts⟩, kept)

/-- Blocks with reseeding from a number on, of `count` in all. -/
def replaceFrom (p : Plan α) (a : Audience α) (count : Nat) :
    Nat → List (List α) → Learner.Work α γ → Task α (Learner.Work α γ)
  | _, [], w => pure w
  | index, rates :: blocks, w => do
    let x ← need (replaceBlock p rates w)
    tell p a (.replaced index count x.1 x.2.2)
    replaceFrom p a count (index + 1) blocks x.2.1

/-- One block without reseeding, and the best set after it. -/
def finalBlock (p : Plan α) (rates : List α) (s : PaletteSet α) (l : Learner α γ) :
    Result (α × PaletteSet α × Learner α γ × Measured α) := do
  let moved ← run p.problem l s rates
  let measured ← checkpoint p.problem moved.2 moved.1
  let kept ← best measured.2
  pure (measured.1, moved.1, measured.2, kept)

/-- Blocks without reseeding from a number on. -/
def finalFrom (p : Plan α) (a : Audience α) :
    Nat → List (Stretch α) → PaletteSet α → Learner α γ → Task α (PaletteSet α × Learner α γ)
  | _, [], s, l => pure (s, l)
  | index, x :: blocks, s, l => do
    let y ← need (finalBlock p x.rates s l)
    tell p a (.refined index x.done x.total y.1 y.2.2.2)
    finalFrom p a (index + 1) blocks y.2.1 y.2.2.1

/-- Corrective passes from number `i` on, `n` of them. -/
def correctFrom (p : Plan α) (a : Audience α) : Nat → Nat → PaletteSet α → Task α (PaletteSet α)
  | 0, _, s => pure s
  | n + 1, i, s => do
    let s ← need (correctOnce p.settings.bitsPerChannel p.tiles s)
    tell p a (.corrected i s)
    correctFrom p a n (i + 1) s

section Phases

variable {p : Plan α} (a : Audience α)

omit [OrderSource γ] in
theorem measuredBest_usable {l : Learner α γ} (hl : l.Sound p.problem) {s : PaletteSet α} (hs : s.Usable) :
    (l.measuredBest s).set.Usable := by
  rw [Learner.measuredBest]
  cases hbest : l.best with
  | none => exact hs
  | some b => exact hl.best b hbest

variable (hp : p.Sound)
include hp

variable [LawfulSource γ]

theorem growBy_follows (rates : List α) (n : Nat) {s : PaletteSet α} {l : Learner α γ} (hs : s.Usable)
    (hl : l.Sound p.problem) :
    Follows (growBy p a rates n s l) (Learner.growBy (p.tell a) p.problem rates n s l)
      fun x => x.1.Usable ∧ x.2.Sound p.problem := by
  induction n generalizing s l with
  | zero => exact Follows.pure ⟨hs, hl⟩
  | succ n ih =>
    obtain ⟨hgrow, husable, hsound⟩ := growOne_eq_ok hp.tiles hl hs rates
    rw [growBy, Learner.growBy]
    refine Follows.need hgrow ?_
    have hrejected : ∀ m ∈ (l.growOne p.problem s rates).moment, ∃ slots after before, m = .rejected slots after before := by
      intro m hm
      simp only [Learner.growOne, Learner.judge] at hm
      split at hm
      · cases hm
        exact ⟨_, _, _, rfl⟩
      · cases hm
    have hnext := Follows.bind (tell_follows a hp (.grown (l.growOne p.problem s rates).set)
      (by simpa [Moment.sets] using husable) (by simp)) fun _ _ => ih husable hsound
    cases hm : (l.growOne p.problem s rates).moment with
    | none => exact hnext
    | some m =>
      obtain ⟨slots, after, before, rfl⟩ := hrejected m hm
      exact Follows.bind (tell_follows a hp _ (by simp [Moment.sets]) (by simp)) fun _ _ => hnext

/-- A block of samples with the checkpoint behind it. -/
theorem block_eq_ok {s : PaletteSet α} {l : Learner α γ} (hs : s.Usable) (hl : l.Sound p.problem) (rates : List α) :
    finalBlock p rates s l = .ok ((Learner.finalBlock p.problem rates s l).1,
        (Learner.finalBlock p.problem rates s l).2.1, (Learner.finalBlock p.problem rates s l).2.2,
        (Learner.finalBlock p.problem rates s l).2.2.measuredBest (Learner.finalBlock p.problem rates s l).2.1) ∧
      (Learner.finalBlock p.problem rates s l).2.1.Usable ∧
      (Learner.finalBlock p.problem rates s l).2.2.Sound p.problem := by
  obtain ⟨hrun, husable, hsound⟩ := run_eq_ok hp.tiles hl hs rates
  obtain ⟨hcheckpoint, hchecked, hbest⟩ := checkpoint_eq_ok hp.tiles hsound husable
  rw [finalBlock, hrun, ok_bind, hcheckpoint, ok_bind, hbest]
  exact ⟨rfl, husable, hchecked⟩

theorem finalFrom_follows (blocks : List (Stretch α)) (index : Nat) {s : PaletteSet α} {l : Learner α γ} (hs : s.Usable)
    (hl : l.Sound p.problem) :
    Follows (finalFrom p a index blocks s l) (Learner.finalFrom (p.tell a) p.problem index blocks s l)
      fun x => x.1.Usable ∧ x.2.Sound p.problem := by
  induction blocks generalizing index s l with
  | nil => exact Follows.pure ⟨hs, hl⟩
  | cons x blocks ih =>
    obtain ⟨hblock, husable, hsound⟩ := block_eq_ok hp hs hl x.rates
    rw [finalFrom, Learner.finalFrom]
    refine Follows.need hblock ?_
    have hkept := measuredBest_usable hsound husable
    refine Follows.bind (tell_follows a hp _ (by simpa [Moment.sets] using hkept) (by simp)) fun _ _ => ?_
    exact ih _ husable hsound

variable [Scalar.OrderedZero α]

theorem replaceBlock_eq_ok {w : Learner.Work α γ} (hs : w.set.Usable) (hl : w.learner.Sound p.problem) (rates : List α) :
    replaceBlock p rates w = .ok ((Learner.replaceBlock p.problem p.reseedRule rates w).1,
        (Learner.replaceBlock p.problem p.reseedRule rates w).2,
        (Learner.replaceBlock p.problem p.reseedRule rates w).2.learner.measuredBest
          (Learner.replaceBlock p.problem p.reseedRule rates w).2.set) ∧
      (Learner.replaceBlock p.problem p.reseedRule rates w).2.set.Usable ∧
      (Learner.replaceBlock p.problem p.reseedRule rates w).2.learner.Sound p.problem := by
  obtain ⟨hreplace, hreseeded⟩ := replace_eq_ok p.reseedRule hp.tiles (x := ⟨w.set, w.counts⟩) hs
  have htiles : p.problem.tiles.Sound := hp.tiles
  obtain ⟨hrun, husable, hsound⟩ := run_eq_ok htiles hl hreseeded rates
  obtain ⟨hcheckpoint, hchecked, hbest⟩ := checkpoint_eq_ok hp.tiles hsound husable
  rw [replaceBlock, hreplace, ok_bind, hrun, ok_bind, hcheckpoint, ok_bind, hbest]
  exact ⟨rfl, husable, hchecked⟩

theorem replaceFrom_follows (blocks : List (List α)) (index count : Nat) (hcount : blocks ≠ [] → 0 < count)
    {w : Learner.Work α γ} (hs : w.set.Usable) (hl : w.learner.Sound p.problem) :
    Follows (replaceFrom p a count index blocks w)
      (Learner.replaceFrom (p.tell a) p.problem p.reseedRule count index blocks w)
      fun x => x.set.Usable ∧ x.learner.Sound p.problem := by
  induction blocks generalizing index w with
  | nil => exact Follows.pure ⟨hs, hl⟩
  | cons rates blocks ih =>
    obtain ⟨hblock, husable, hsound⟩ := replaceBlock_eq_ok hp hs hl rates
    have hpos := hcount (List.cons_ne_nil _ _)
    rw [replaceFrom, Learner.replaceFrom]
    refine Follows.need hblock ?_
    have hkept := measuredBest_usable hsound husable
    refine Follows.bind (tell_follows a hp _ (by simpa [Moment.sets] using hkept) ?_) fun _ _ => ?_
    · rintro _ _ _ _ h
      cases h
      exact hpos
    · exact ih _ (fun _ => hpos) husable hsound

omit [LawfulSource γ] [Scalar.OrderedZero α] [OrderSource γ] in
theorem correctFrom_follows (n i : Nat) {s : PaletteSet α} (hs : s.Usable) :
    Follows (correctFrom p a n i s) (Depth.correctFrom (p.tell a) p.settings.bitsPerChannel p.tiles n i s)
      fun x => x.Usable := by
  induction n generalizing i s with
  | zero => exact Follows.pure hs
  | succ n ih =>
    obtain ⟨hcorrect, husable⟩ := correctOnce_eq_ok hp.bits_pos hp.tiles hs
    rw [correctFrom, Depth.correctFrom]
    refine Follows.need hcorrect ?_
    refine Follows.bind (tell_follows a hp _ (by simpa [Moment.sets] using husable) (by simp)) fun _ _ => ?_
    exact ih _ husable

end Phases

/-! ## Stages -/

/-- Grows palettes. -/
def growStage (p : Plan α) (a : Audience α) (l : Learner α γ) (s : PaletteSet α) : Task α (PaletteSet α × Learner α γ) := do
  let x ← growBy p a p.growRates (p.settings.colorsPerPalette - s.slots) s l
  report p a (Scalar.ofNat Plan.growEnd) .grow x.1
  act (Job.note (.grown x.1.slots x.2.rejected))
  pure x

/-- Palettes between the phases: at the bit depth, unless they are dithered. -/
def settled (p : Plan α) (s : PaletteSet α) : Result (PaletteSet α) :=
  if p.settings.useDither then pure s else reduce p.settings.bitsPerChannel s

/-- Refines palettes with reseeding. -/
def replaceStage (p : Plan α) (a : Audience α) (l : Learner α γ) (s : PaletteSet α) :
    Task α (PaletteSet α × Learner α γ) := do
  let w ← replaceFrom p a p.replaceRates.length 0 p.replaceRates ⟨s, { l with phase := .annealing }, ⟨0, 0⟩⟩
  let s ← need (settled p (w.learner.bestOr w.set))
  act (Job.note (.replaced w.counts w.learner.bestError))
  pure (s, w.learner)

/-- Refines palettes without reseeding. -/
def finalStage (p : Plan α) (a : Audience α) (l : Learner α γ) (s : PaletteSet α) : Task α (PaletteSet α × Learner α γ) := do
  let x ← finalFrom p a 0 p.finalRates s { l with phase := .annealing }
  pure (x.2.bestOr x.1, { x.2 with phase := .converged })

/-- Reduces palettes to the bit depth. -/
def depthStage (p : Plan α) (a : Audience α) (s : PaletteSet α) : Task α (PaletteSet α) := do
  let s ← need (reduce p.settings.bitsPerChannel s)
  if p.settings.useDither then
    report p a (Scalar.ofNat Plan.ditherEnd) .bitDepth s
    pure s
  else correctFrom p a Depth.defaultPasses 0 s

/-- The starting palettes. -/
def startOf (p : Plan α) : Result (PaletteSet α) :=
  start p.means p.tiles p.settings.numPalettes p.settings.colorZero p.settings.sharedColor p.settings.transparentColor

/-- All stages, from the starting palettes to the final ones. -/
def optimise (p : Plan α) (a : Audience α) (l : Learner α γ) : Task α (PaletteSet α × Learner α γ) := do
  let s ← need (startOf p)
  report p a (Scalar.ofNat 0) .start s
  let x ← growStage p a l s
  let x ← replaceStage p a x.2 x.1
  let x ← finalStage p a x.2 x.1
  let s ← depthStage p a x.1
  pure (s, x.2)

section Stages

variable {p : Plan α} (a : Audience α) (hp : p.Sound)

omit [OrderSource γ] [Scalar α] in
theorem bestOr_usable {l : Learner α γ} (hl : l.Sound p.problem) {s : PaletteSet α} (hs : s.Usable) :
    (l.bestOr s).Usable := by
  rw [Learner.bestOr]
  cases hbest : l.best with
  | none => exact hs
  | some b => exact hl.best b hbest

include hp

theorem startOf_eq_ok : startOf p = .ok p.start ∧ p.start.Usable :=
  start_eq_ok hp.means p.tiles hp.palettes_pos p.settings.colorZero p.settings.sharedColor p.settings.transparentColor

theorem settled_eq_ok {s : PaletteSet α} (hs : s.Usable) :
    settled p s = .ok (if p.settings.useDither then s else Depth.reduce p.settings.bitsPerChannel s) ∧
      (if p.settings.useDither then s else Depth.reduce p.settings.bitsPerChannel s).Usable := by
  rw [settled]
  split
  · exact ⟨rfl, hs⟩
  · exact reduce_eq_ok hp.bits_pos hs

theorem depthStage_follows {s : PaletteSet α} (hs : s.Usable) :
    Follows (depthStage p a s) (p.depthStage a s) fun x => x.Usable := by
  obtain ⟨hreduce, husable⟩ := reduce_eq_ok hp.bits_pos hs
  rw [depthStage, Plan.depthStage]
  refine Follows.need hreduce ?_
  by_cases hdither : p.settings.useDither
  · rw [if_pos hdither, if_pos hdither]
    exact Follows.bind (report_follows a hp husable _ _) fun _ _ => Follows.pure husable
  · rw [if_neg hdither, if_neg hdither]
    exact correctFrom_follows a hp _ _ husable

variable [LawfulSource γ] {s : PaletteSet α} {l : Learner α γ} (hs : s.Usable)
variable (hl : l.Sound p.problem)
include hs hl

theorem growStage_follows :
    Follows (growStage p a l s) (p.growStage a l s) fun x => x.1.Usable ∧ x.2.Sound p.problem := by
  refine Follows.bind (growBy_follows a hp p.growRates _ hs hl) ?_
  rintro ⟨s, l⟩ ⟨hs, hl⟩
  refine Follows.bind (report_follows a hp hs _ _) fun _ _ => ?_
  exact Follows.bind (Follows.note _) fun _ _ => Follows.pure ⟨hs, hl⟩

theorem finalStage_follows :
    Follows (finalStage p a l s) (p.finalStage a l s) fun x => x.1.Usable ∧ x.2.Sound p.problem := by
  have hphase : ({ l with phase := .annealing } : Learner α γ).Sound p.problem := ⟨hl.shuffler, hl.size_eq, hl.best⟩
  rw [Plan.finalStage, Learner.finalPhase, bind_assoc]
  refine Follows.bind (finalFrom_follows a hp p.finalRates 0 hs hphase) ?_
  rintro ⟨s, l⟩ ⟨hs, hl⟩
  exact Follows.pure ⟨bestOr_usable hl hs, hl.shuffler, hl.size_eq, hl.best⟩

variable [Scalar.OrderedZero α]

theorem replaceStage_follows :
    Follows (replaceStage p a l s) (p.replaceStage a l s) fun x => x.1.Usable ∧ x.2.Sound p.problem := by
  have hcount : p.replaceRates ≠ [] → 0 < p.replaceRates.length := List.length_pos_iff.2
  refine Follows.bind (replaceFrom_follows a hp p.replaceRates 0 _ hcount hs ⟨hl.shuffler, hl.size_eq, hl.best⟩) ?_
  rintro w ⟨hs, hl⟩
  obtain ⟨hsettled, husable⟩ := settled_eq_ok hp (bestOr_usable hl hs)
  refine Follows.need hsettled ?_
  exact Follows.bind (Follows.note _) fun _ _ => Follows.pure ⟨husable, hl⟩

omit hs in
/-- **All stages under guard.** -/
theorem optimise_follows :
    Follows (optimise p a l) (p.optimise a l) fun x => x.1.Usable ∧ x.2.Sound p.problem := by
  obtain ⟨hstart, husable⟩ := startOf_eq_ok hp
  refine Follows.need hstart ?_
  refine Follows.bind (report_follows a hp husable _ _) fun _ _ => ?_
  refine Follows.bind (growStage_follows a hp husable hl) ?_
  rintro ⟨s, l⟩ ⟨hs, hl⟩
  refine Follows.bind (replaceStage_follows a hp hs hl) ?_
  rintro ⟨s, l⟩ ⟨hs, hl⟩
  refine Follows.bind (finalStage_follows a hp hs hl) ?_
  rintro ⟨s, l⟩ ⟨hs, hl⟩
  refine Follows.bind (depthStage_follows a hp hs) fun s hs => ?_
  exact Follows.pure ⟨hs, hl⟩

end Stages

/-! ## Runs -/

section Attempts

variable {β : Type}

/-- Work that keeps a journal and can be refused. A refusal leaves the journal as it is. -/
abbrev Attempt (α : Type) := ExceptT Error (StateM (Journal α))

/-- What has to be there. -/
def check (x : Result β) : Attempt α β := ExceptT.mk (pure x)

/-- Writes to the journal. -/
def write (f : Journal α → Journal α) : Attempt α Unit := ExceptT.lift (modify f)

/-- What comes of a task: a refusal, or what it hands over, or the report that it was stopped at. -/
def concluded (r : Except (Event α) (Except Error β)) : Except Error (Except (Event α) β) :=
  match r with
  | .ok (.ok b) => .ok (.ok b)
  | .ok (.error e) => .error e
  | .error stop => .ok (.error stop)

/-- Does a task to its end. -/
def finish (x : Task α β) : Attempt α (Except (Event α) β) :=
  ExceptT.mk fun j =>
    let r := StateT.run (ExceptT.run (ExceptT.run x)) j
    (concluded r.1, r.2)

omit [Scalar α] in
/-- What comes after a task that is not refused. -/
theorem run_finish {δ : Type} {x : Task α β} {j : Journal α} {r : Except (Event α) β × Journal α}
    (h : StateT.run (ExceptT.run (ExceptT.run x)) j = (r.1.map Except.ok, r.2)) (f : Except (Event α) β → Attempt α δ) :
    StateT.run (ExceptT.run (finish x >>= f)) j = StateT.run (ExceptT.run (f r.1)) r.2 := by
  have hfinish : StateT.run (ExceptT.run (finish x)) j = (.ok r.1, r.2) := by
    show (concluded (StateT.run (ExceptT.run (ExceptT.run x)) j).1, (StateT.run (ExceptT.run (ExceptT.run x)) j).2) = _
    rw [h]
    obtain ⟨_ | b, next⟩ := r
    · rfl
    · rfl
  rw [ExceptT.run_bind, StateT.run_bind, hfinish]
  rfl

end Attempts

/-- The samples in a block. -/
def block (p : Plan α) : Result Nat :=
  let n := p.settings.fractionOfPixels * Scalar.ofInt p.tiles.samples.size
  let n := if p.settings.dither = .slow then n / Scalar.ofNat 5 else n
  if Scalar.isFinite n then pure (max 1 (Scalar.toNat n)) else refuse .overflow

/-- The sizes of a plan for the log. -/
def sizes (p : Plan α) : Result (Note α) := do
  let n ← block p
  pure (.sizes p.canvas.width p.canvas.height p.tiles.tiles.length p.tiles.samples.size n)

/-- The last report, and the composition. -/
def close (p : Plan α) (a : Audience α) (s : PaletteSet α) : Attempt α (Composition α) := do
  let c ← check (composed p s false)
  let shown ← check (previewFor p a s)
  write fun j => (j.report (Scalar.ofNat Plan.allDone) .done s shown).2
  pure c

/-- A run with nothing to optimise. -/
def runIdle (p : Plan α) (a : Audience α) : Attempt α (Composition α) := do
  let note ← check (sizes p)
  write fun j => j.note note
  let s ← check (startOf p)
  let s ← check (padded s p.settings.colorsPerPalette)
  let s ← check (reduce p.settings.bitsPerChannel s)
  close p a s

/-- The end of a run that came to its last palettes, or was stopped. -/
def conclude (p : Plan α) (a : Audience α) (r : Except (Event α) (PaletteSet α × Learner α γ)) :
    Attempt α (Composition α) :=
  match r with
  | .ok x => do
    let c ← close p a x.1
    write fun j => j.note (.finished c.mse x.2.bestError)
    pure c
  | .error e => do
    let c ← check (composed p e.set true)
    write fun j => j.note (.stopped e.percent e.stage)
    pure c

/-- A run with samples to learn from. -/
def runWith (p : Plan α) (a : Audience α) (source : γ) : Attempt α (Composition α) := do
  let note ← check (sizes p)
  write fun j => j.note note
  let drawn ← check (Shuffler.checked p.tiles.samples.size (.ok source))
  let r ← finish (optimise p a (Learner.start drawn.1 drawn.2))
  conclude p a r

section Runs

variable {p : Plan α} (a : Audience α) (hp : p.Sound)
include hp

theorem sizes_eq_ok : sizes p = .ok p.sizes := by
  have hblock : block p = .ok p.block := by
    rw [block, if_pos hp.countable.share_isFinite]
    rfl
  rw [sizes, hblock]
  rfl

theorem run_close {s : PaletteSet α} (hs : s.Usable) (j : Journal α) :
    StateT.run (ExceptT.run (close p a s)) j =
      (.ok (p.compose s false), (j.report (Scalar.ofNat Plan.allDone) .done s (p.previewFor a s)).2) := by
  rw [close, composed_eq_ok hp hs, previewFor_eq_ok a hp hs]
  rfl

/-- A run with nothing to optimise is not refused. -/
theorem runIdle_eq_ok :
    StateT.run (ExceptT.run (runIdle p a)) Journal.empty = (.ok (p.runIdle a).composition, (p.runIdle a).journal) := by
  obtain ⟨hstart, hs⟩ := startOf_eq_ok hp
  obtain ⟨hpadded, hs⟩ := padded_eq_ok hs p.settings.colorsPerPalette
  obtain ⟨hreduce, hs⟩ := reduce_eq_ok hp.bits_pos hs
  rw [runIdle, sizes_eq_ok hp, hstart]
  show StateT.run (ExceptT.run (check (padded p.start p.settings.colorsPerPalette) >>= _)) _ = _
  rw [hpadded]
  show StateT.run (ExceptT.run (check (reduce p.settings.bitsPerChannel
    (p.start.padded p.settings.colorsPerPalette)) >>= _)) _ = _
  rw [hreduce]
  exact run_close a hp hs _

/-- A run with samples is not refused, whatever the audience says. -/
theorem runWith_eq_ok [Scalar.OrderedZero α] [LawfulSource γ] (hsamples : 0 < p.tiles.samples.size)
    (source : γ) :
    StateT.run (ExceptT.run (runWith p a source)) Journal.empty =
      (.ok (p.runWith a source).composition, (p.runWith a source).journal) := by
  have hsound : (Learner.start (α := α) (Shuffler.start p.tiles.samples.size source).1
      (Shuffler.start p.tiles.samples.size source).2).Sound p.problem :=
    ⟨Shuffler.start_sound hsamples source, rfl, by simp [Learner.start]⟩
  have hchecked : Shuffler.checked (p.tiles.samples.size : Int) (.ok source) =
      .ok (Shuffler.start p.tiles.samples.size source) := by
    rw [Shuffler.checked, if_neg (by omega)]
    rfl
  obtain ⟨hrun, hok, herror⟩ := optimise_follows a hp hsound (Journal.empty.note p.sizes)
  rw [runWith, sizes_eq_ok hp, hchecked]
  refine (run_finish hrun (conclude p a)).trans ?_
  rw [Plan.runWith]
  dsimp only
  generalize StateT.run (ExceptT.run (p.optimise a (Learner.start (Shuffler.start p.tiles.samples.size source).1
    (Shuffler.start p.tiles.samples.size source).2))) (Journal.empty.note p.sizes) = r at hok herror ⊢
  obtain ⟨e | ⟨s, l⟩, j⟩ := r
  · rw [conclude, composed_eq_ok hp (herror e rfl)]
    rfl
  · have hclose := run_close a hp (hok (s, l) rfl).1 j
    rw [conclude, ExceptT.run_bind, StateT.run_bind, hclose]
    rfl

end Runs

end Guarded

end Tessera
