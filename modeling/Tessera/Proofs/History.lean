import Mathlib
import Tessera.Proofs.Cancelling
/-!
# Every palette set of a run

`Plan.history` lists the palettes at work in a run that nobody stops: the starting palettes, those after each single sample,
each slot that is added, each replacement and each checkpoint, and those after reducing and after each corrective pass. All
of them are reached (`Plan.history_reaches`), so what `Plan.Reaches` keeps holds at every step.
-/

namespace Tessera

variable {α γ : Type} [Scalar α] [OrderSource γ]

namespace Learner.Work

/-- The palettes at work during an act, after each of its samples, and at its end. -/
def during (pb : Problem α) (w : Work α γ) : Act α → List (PaletteSet α)
  | .draw rates => (w.learner.drawn rates).inits.map (Learn.run pb.tiles w.set)
  | .grow rates => (w.learner.drawn rates).inits.map (Learn.run pb.tiles (seeded pb.tiles w.set)) ++
      [(w.perform pb (.grow rates)).set]
  | a => [(w.perform pb a).set]

/-- The palettes at work during acts. -/
def history (pb : Problem α) (w : Work α γ) : List (Act α) → List (PaletteSet α)
  | [] => []
  | a :: acts => w.during pb a ++ history pb (w.perform pb a) acts

theorem history_append (pb : Problem α) (w : Work α γ) (as bs : List (Act α)) :
    w.history pb (as ++ bs) = w.history pb as ++ (w.performAll pb as).history pb bs := by
  induction as generalizing w with
  | nil => rfl
  | cons a as ih => simp [history, ih]

end Learner.Work

namespace Plan

open Learner

variable (p : Plan α)

/-- The palettes while the bit depth is reduced: at first, and after each corrective pass. -/
def depths (s : PaletteSet α) : List (PaletteSet α) :=
  if p.settings.useDither then [Depth.reduce p.settings.bitsPerChannel s]
  else (List.range (Depth.defaultPasses + 1)).map fun n =>
    (Depth.correctOnce p.settings.bitsPerChannel p.tiles)^[n] (Depth.reduce p.settings.bitsPerChannel s)

/-- The palettes at work in a run, and at its end lengthened. -/
def history (g : γ) : List (PaletteSet α) :=
  if p.tiles.samples.isEmpty then
    [p.start, p.start.padded p.settings.colorsPerPalette,
      Depth.reduce p.settings.bitsPerChannel (p.start.padded p.settings.colorsPerPalette)]
  else
    p.start :: (p.opening (p.learner g)).history p.problem p.acts ++ p.depths (p.afterRefining (p.learner g)).set ++
      [(p.finalSet g).padded p.settings.colorsPerPalette]

variable {p} {w : Work α γ} {s : PaletteSet α}

/-- The palettes at work and the best so far are reached. -/
structure Stands (p : Plan α) (w : Work α γ) : Prop where
  set : p.Reaches w.set
  best : w.learner.Keeps p.Reaches

theorem Reaches.samples (hs : p.Reaches s) {steps : List (Nat × α)} (hsteps : ∀ x ∈ steps, p.IsRate x.2) :
    p.Reaches (Learn.run p.tiles s steps) := by
  refine Learn.run_induct p.tiles steps hs fun t q x rate hx hrate ht => .moved q ht hx ?_
  obtain ⟨step, hstep, rfl⟩ := List.mem_map.1 hrate
  exact hsteps step hstep

theorem Reaches.inits (hs : p.Reaches s) (l : Learner α γ) {rates : List α} (hrates : ∀ rate ∈ rates, p.IsRate rate) :
    ∀ t ∈ (l.drawn rates).inits.map (Learn.run p.tiles s), p.Reaches t := by
  intro t ht
  obtain ⟨steps, hsteps, rfl⟩ := List.mem_map.1 ht
  refine hs.samples fun x hx => hrates _ ?_
  exact (List.of_mem_zip ((List.mem_inits _ _).1 hsteps |>.subset hx)).2

/-- An act that draws samples at the rates of the run, or changes palettes as a run may. -/
def Allows (p : Plan α) : Act α → Prop
  | .draw rates => ∀ rate ∈ rates, p.IsRate rate
  | .change f => ∀ x, p.Reaches x.set → p.Reaches (f x).set
  | .grow _ => False
  | _ => True

/-- One act. -/
theorem Stands.perform (hw : p.Stands w) {a : Act α} (ha : p.Allows a) :
    p.Stands (w.perform p.problem a) ∧ ∀ t ∈ w.during p.problem a, p.Reaches t := by
  cases a with
  | draw rates => exact ⟨⟨hw.set.run ha, hw.best⟩, hw.set.inits w.learner ha⟩
  | change f =>
    have hset := ha ⟨w.set, w.counts⟩ hw.set
    exact ⟨⟨hset, hw.best⟩, List.forall_mem_singleton.2 hset⟩
  | measure => exact ⟨⟨hw.set, hw.best.checkpoint p.problem hw.set⟩, List.forall_mem_singleton.2 hw.set⟩
  | grow rates => exact absurd ha id
  | restore =>
    have hset := hw.best.bestOr hw.set
    exact ⟨⟨hset, hw.best⟩, List.forall_mem_singleton.2 hset⟩
  | turn phase => exact ⟨⟨hw.set, hw.best⟩, List.forall_mem_singleton.2 hw.set⟩

/-- Many acts. -/
theorem Stands.performAll (hw : p.Stands w) {acts : List (Act α)} (hacts : ∀ a ∈ acts, p.Allows a) :
    p.Stands (w.performAll p.problem acts) ∧ ∀ t ∈ w.history p.problem acts, p.Reaches t := by
  induction acts generalizing w with
  | nil => exact ⟨hw, List.forall_mem_nil _⟩
  | cons a acts ih =>
    obtain ⟨hnext, hduring⟩ := hw.perform (hacts a List.mem_cons_self)
    obtain ⟨hend, hrest⟩ := ih hnext fun b hb => hacts b (List.mem_cons_of_mem a hb)
    exact ⟨hend, List.forall_mem_append.2 ⟨hduring, hrest⟩⟩

/-- Growth, which needs room for its slots. -/
theorem Stands.grow (hw : p.Stands w) {rates : List α} (hrates : ∀ rate ∈ rates, p.IsRate rate) (n : Nat)
    (hn : n = 0 ∨ w.set.slots + n ≤ p.settings.colorsPerPalette) :
    p.Stands (w.performAll p.problem (List.replicate n (.grow rates))) ∧
      ∀ t ∈ w.history p.problem (List.replicate n (.grow rates)), p.Reaches t := by
  induction n generalizing w with
  | zero => exact ⟨hw, List.forall_mem_nil _⟩
  | succ n ih =>
    obtain ⟨hset, hslots, hbest, -⟩ := hw.set.growOne hw.best (by omega) hrates
    have hnext : p.Stands (w.perform p.problem (.grow rates)) := ⟨hset, hbest⟩
    obtain ⟨hend, hrest⟩ := ih hnext (by
      change n = 0 ∨ (w.learner.growOne p.problem w.set rates).set.slots + n ≤ _
      omega)
    refine ⟨hend, List.forall_mem_append.2 ⟨List.forall_mem_append.2 ⟨?_, List.forall_mem_singleton.2 hset⟩, hrest⟩⟩
    exact (Reaches.seeded hw.set (by omega)).inits w.learner hrates

/-! ## The acts of a run -/

theorem allows_replacing : ∀ a ∈ p.replacing, p.Allows a := by
  intro a ha
  rcases List.mem_append.1 ha with ha | ha
  · rcases List.mem_cons.1 ha with rfl | ha
    · exact trivial
    · obtain ⟨rates, hrates, hblock⟩ := List.mem_flatMap.1 ha
      rw [replaceActs] at hblock
      simp only [List.mem_cons, List.not_mem_nil, or_false] at hblock
      rcases hblock with rfl | rfl | rfl
      · exact fun x hx => hx.replace _ _
      · exact fun rate hrate => .inr (.inl ⟨rates, hrates, hrate⟩)
      · exact trivial
  · simp only [List.mem_cons, List.not_mem_nil, or_false] at ha
    rcases ha with rfl | rfl
    · exact trivial
    · intro x hx
      rw [settle]
      dsimp only
      split
      · exact hx
      · exact .reduced hx

theorem allows_refining : ∀ a ∈ p.refining, p.Allows a := by
  intro a ha
  rcases List.mem_append.1 ha with ha | ha
  · rcases List.mem_cons.1 ha with rfl | ha
    · exact trivial
    · obtain ⟨x, hx, hblock⟩ := List.mem_flatMap.1 ha
      rw [finalActs] at hblock
      simp only [List.mem_cons, List.not_mem_nil, or_false] at hblock
      rcases hblock with rfl | rfl
      · exact fun rate hrate => .inr (.inr ⟨x, hx, hrate⟩)
      · exact trivial
  · simp only [List.mem_cons, List.not_mem_nil, or_false] at ha
    rcases ha with rfl | rfl <;> exact trivial

/-- What the acts of a run come to is reached, and so is all that is at work on the way. -/
theorem acts_reaches (g : γ) :
    p.Reaches (p.afterRefining (p.learner g)).set ∧
      ∀ t ∈ (p.opening (p.learner g)).history p.problem p.acts, p.Reaches t := by
  have hopening : p.Stands (p.opening (p.learner g)) := ⟨.start, fun b hb => by cases hb⟩
  obtain ⟨hgrown, hgrowth⟩ := hopening.grow (fun rate hrate => .inl hrate)
    (p.settings.colorsPerPalette - p.start.slots) (by
      change _ ∨ p.start.slots + _ ≤ _
      omega)
  obtain ⟨hreplaced, hreplacing⟩ := hgrown.performAll allows_replacing
  obtain ⟨hrefined, hrefining⟩ := hreplaced.performAll allows_refining
  refine ⟨hrefined.set, ?_⟩
  rw [acts, Work.history_append, Work.history_append, Work.performAll_append]
  exact List.forall_mem_append.2 ⟨List.forall_mem_append.2 ⟨hgrowth, hreplacing⟩, hrefining⟩

theorem Reaches.corrected (hs : p.Reaches s) (n : Nat) :
    p.Reaches ((Depth.correctOnce p.settings.bitsPerChannel p.tiles)^[n] s) := by
  induction n with
  | zero => exact hs
  | succ n ih =>
    rw [Function.iterate_succ_apply']
    exact ih.correctOnce

theorem Reaches.depths (hs : p.Reaches s) : ∀ t ∈ p.depths s, p.Reaches t := by
  rw [Plan.depths]
  split
  · exact List.forall_mem_singleton.2 (.reduced hs)
  · intro t ht
    obtain ⟨n, -, rfl⟩ := List.mem_map.1 ht
    exact hs.reduced.corrected n

theorem Reaches.deepened (hs : p.Reaches s) : p.Reaches (p.deepened s) := by
  rw [Plan.deepened]
  split
  · exact .reduced hs
  · exact hs.reduced.corrected _

theorem finalSet_reaches (g : γ) : p.Reaches (p.finalSet g) := (acts_reaches g).1.deepened

/-- **Every step.** All palettes at work in a run are reached. -/
theorem history_reaches (g : γ) : ∀ t ∈ p.history g, p.Reaches t := by
  rw [history]
  split
  · have hpadded : p.Reaches (p.start.padded p.settings.colorsPerPalette) := .padded .start
    simp only [List.mem_cons, List.not_mem_nil, or_false]
    rintro t (rfl | rfl | rfl)
    · exact .start
    · exact hpadded
    · exact .reduced hpadded
  · obtain ⟨hrefined, hacts⟩ := acts_reaches (p := p) g
    refine List.forall_mem_append.2 ⟨List.forall_mem_append.2 ⟨?_, hrefined.depths⟩, ?_⟩
    · exact List.forall_mem_cons.2 ⟨.start, hacts⟩
    · exact List.forall_mem_singleton.2 (.padded (finalSet_reaches g))

end Plan

end Tessera
