import Mathlib
import Tessera.Proofs.Acts
import Tessera.Run.Basic
/-!
# What a run does and what it says

What a run does is a list of acts that its plan lays down (`Plan.acts`), and what it says is a list of lines, notes for its
log and reports, that follows from them (`Plan.script`). Neither depends on the audience: a run says its lines one after the
other and hands over what its acts come to (`optimise_eq`), so an audience decides only how many of the lines are said.
-/

namespace Tessera

variable {α γ : Type} [Scalar α] [OrderSource γ]

/-- A line that a run says: a note, or a report. -/
inductive Line (α : Type) where
  | note (n : Note α)
  | report (percent : α) (stage : Stage) (set : PaletteSet α)

namespace Plan

open Learner

variable (p : Plan α)

/-! ## Acts -/

omit [Scalar α] in
@[simp] theorem problem_tiles : p.problem.tiles = p.tiles := rfl

/-- The acts of growth. -/
def growth : List (Act α) :=
  List.replicate (p.settings.colorsPerPalette - p.start.slots) (.grow p.growRates)

/-- Palettes go on from the best, on the levels of the bit depth unless they will be dithered. -/
def settle (x : Reseed.Changed α) : Reseed.Changed α :=
  ⟨if p.settings.useDither then x.set else Depth.reduce p.settings.bitsPerChannel x.set, x.counts⟩

/-- The acts of refining with reseeding. -/
def replacing : List (Act α) :=
  .turn .annealing :: p.replaceRates.flatMap (replaceActs (Reseed.replace p.reseedRule p.tiles)) ++
    [.restore, .change p.settle]

/-- The acts of refining without reseeding. -/
def refining : List (Act α) :=
  .turn .annealing :: p.finalRates.flatMap (fun x => finalActs x.rates) ++ [.turn .converged, .restore]

/-- The acts of a run, from the starting palettes to the best. -/
def acts : List (Act α) := p.growth ++ p.replacing ++ p.refining

/-- The palettes and the learner before the first act. -/
def opening (l : Learner α γ) : Work α γ := ⟨p.start, l, ⟨0, 0⟩⟩

/-- After growth. -/
def afterGrowth (l : Learner α γ) : Work α γ := (p.opening l).performAll p.problem p.growth

/-- After refining with reseeding. -/
def afterReplacing (l : Learner α γ) : Work α γ := (p.afterGrowth l).performAll p.problem p.replacing

/-- After refining without reseeding. -/
def afterRefining (l : Learner α γ) : Work α γ := (p.afterReplacing l).performAll p.problem p.refining

theorem afterRefining_eq (l : Learner α γ) : p.afterRefining l = (p.opening l).performAll p.problem p.acts := by
  simp only [afterRefining, afterReplacing, afterGrowth, acts, Work.performAll_append]

/-! ## Lines -/

/-- The lines of a moment. -/
def lines (m : Moment α) : List (Line α) :=
  let slots := p.settings.colorZero.initialSlots
  .note (.moment m) :: match m with
  | .rejected .. => []
  | .grown s =>
    [.report (between 0 growEnd (s.slots - slots) (max 1 (p.settings.colorsPerPalette - slots))) .grow s]
  | .replaced index count _ best => [.report (between growEnd replaceEnd (index + 1) count) .replace best.set]
  | .refined index _ _ _ best =>
    [.report (between replaceEnd finalEnd (index + 1) (countBlocks α p.finalTotal p.block).toNat) .refine best.set]
  | .corrected index s =>
    [.report (between finalEnd allDone (index + 1) (Depth.defaultPasses + 1)) .bitDepth s]

/-- The lines of growth. -/
def growLines (l : Learner α γ) : List (Line α) :=
  (growMoments p.problem p.growRates (p.settings.colorsPerPalette - p.start.slots) p.start l).flatMap p.lines ++
    [.report (Scalar.ofNat growEnd) .grow (p.afterGrowth l).set,
      .note (.grown (p.afterGrowth l).set.slots (p.afterGrowth l).learner.rejected)]

/-- The lines of refining with reseeding, from palettes on. -/
def replaceLines (w : Work α γ) : List (Line α) :=
  (replaceMoments p.problem p.reseedRule p.replaceRates.length 0 p.replaceRates
      (w.perform p.problem (.turn .annealing))).flatMap p.lines ++
    [.note (.replaced (w.performAll p.problem p.replacing).counts (w.performAll p.problem p.replacing).learner.bestError)]

/-- The lines of refining without reseeding, from palettes on. -/
def refineLines (w : Work α γ) : List (Line α) :=
  (finalMoments p.problem 0 p.finalRates w.set { w.learner with phase := .annealing }).flatMap p.lines

/-- The lines of reducing to the bit depth. -/
def depthLines (s : PaletteSet α) : List (Line α) :=
  if p.settings.useDither then
    [.report (Scalar.ofNat ditherEnd) .bitDepth (Depth.reduce p.settings.bitsPerChannel s)]
  else
    (Depth.correctMoments p.settings.bitsPerChannel p.tiles Depth.defaultPasses 0
      (Depth.reduce p.settings.bitsPerChannel s)).flatMap p.lines

/-- The palettes that reducing to the bit depth hands over. -/
def deepened (s : PaletteSet α) : PaletteSet α :=
  if p.settings.useDither then Depth.reduce p.settings.bitsPerChannel s
  else (Depth.correctOnce p.settings.bitsPerChannel p.tiles)^[Depth.defaultPasses]
    (Depth.reduce p.settings.bitsPerChannel s)

/-- The lines of a run. -/
def script (l : Learner α γ) : List (Line α) :=
  .report (Scalar.ofNat 0) .start p.start :: p.growLines l ++ p.replaceLines (p.afterGrowth l) ++
    p.refineLines (p.afterReplacing l) ++ p.depthLines (p.afterRefining l).set

/-! ## Saying -/

variable (a : Audience α)

/-- Says a line to an audience. -/
def say : Line α → Job α Unit
  | .note n => Job.note n
  | .report percent stage s => p.report a percent stage s

theorem tell_eq (m : Moment α) : p.tell a m = forM (p.lines m) (p.say a) := by
  cases m <;> simp [tell, lines, say]

theorem forM_tell (ms : List (Moment α)) : forM ms (p.tell a) = forM (ms.flatMap p.lines) (p.say a) := by
  induction ms with
  | nil => simp
  | cons m ms ih => simp [tell_eq, ih]

/-- Growth says its lines and comes to where its acts come to. -/
theorem growStage_eq (l : Learner α γ) :
    p.growStage a l p.start = (do
      forM (p.growLines l) (p.say a)
      pure ((p.afterGrowth l).set, (p.afterGrowth l).learner)) := by
  have hgrow := growBy_eq p.problem p.growRates (p.tell a) (p.settings.colorsPerPalette - p.start.slots) (p.opening l)
  rw [growStage, grow]
  simp only [opening] at hgrow
  rw [hgrow, forM_tell]
  simp [growLines, say, afterGrowth, opening, growth]

/-- Refining with reseeding says its lines and comes to where its acts come to. -/
theorem replaceStage_eq (w : Work α γ) (hw : w.counts = ⟨0, 0⟩) :
    p.replaceStage a w.learner w.set = (do
      forM (p.replaceLines w) (p.say a)
      pure ((w.performAll p.problem p.replacing).set, (w.performAll p.problem p.replacing).learner)) := by
  have hstart : (⟨w.set, w.learner, ⟨0, 0⟩⟩ : Work α γ) = w := by rw [← hw]
  rw [replaceStage, hstart, replacePhase_eq, forM_tell]
  simp [replaceLines, say, replacing, Work.performAll_append, Work.perform, settle]

/-- Refining without reseeding says its lines and comes to where its acts come to. -/
theorem finalStage_eq (w : Work α γ) :
    p.finalStage a w.learner w.set = (do
      forM (p.refineLines w) (p.say a)
      pure ((w.performAll p.problem p.refining).set, (w.performAll p.problem p.refining).learner)) := by
  rw [finalStage, finalPhase_eq, forM_tell]
  simp [refineLines, refining, Work.performAll_append, Work.perform]

/-- Reducing to the bit depth says its lines. -/
theorem depthStage_eq (s : PaletteSet α) :
    p.depthStage a s = (do
      forM (p.depthLines s) (p.say a)
      pure (p.deepened s)) := by
  unfold depthStage depthLines deepened
  split
  · simp [say]
  · rw [Depth.correct, Depth.correctFrom_eq, forM_tell]

/-- **A run says its script.** Whoever listens, a run says the lines of its script and hands over what its acts come to. -/
theorem optimise_eq (l : Learner α γ) :
    p.optimise a l = (do
      forM (p.script l) (p.say a)
      pure (p.deepened (p.afterRefining l).set, (p.afterRefining l).learner)) := by
  have hcounts : (p.afterGrowth l).counts = ⟨0, 0⟩ := by
    refine Work.performAll_counts _ _ _ fun f hf => ?_
    cases List.eq_of_mem_replicate hf
  have hreplace := p.replaceStage_eq a (p.afterGrowth l) hcounts
  have hfinal := p.finalStage_eq a (p.afterReplacing l)
  simp only [optimise, growStage_eq, bind_assoc, pure_bind, hreplace]
  simp only [afterReplacing, afterRefining] at hfinal ⊢
  simp [hfinal, depthStage_eq, script, say, afterReplacing, afterRefining]

end Plan

end Tessera
