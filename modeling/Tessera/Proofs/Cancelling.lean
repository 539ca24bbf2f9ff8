import Mathlib
import Tessera.Proofs.Script
import Tessera.Proofs.WellFormed
/-!
# Cancelling a run

A run asks after every report but its last whether to stop. Since what it says is a script that its audience does not change,
a run that is stopped at a report has said the lines up to that report (`run_say_quiet`, `run_say_stopped`), so its events
are a prefix of those of the run that nobody stops, and it composes the palettes of the last of them (`quantize_cancelled`).
-/

namespace Tessera

variable {α γ : Type} [Scalar α] [OrderSource γ]

/-! ## Journals that lines are written to -/

/-- Whether a line is a report. -/
def Line.isReport : Line α → Bool
  | .note _ => false
  | .report .. => true

namespace Journal

variable (preview : PaletteSet α → Option (Composition α)) (j : Journal α)

/-- Writes a line. -/
def write (j : Journal α) : Line α → Journal α
  | .note n => j.note n
  | .report percent stage s => (j.report percent stage s (preview s)).2

/-- Writes lines in order. -/
def writeAll (lines : List (Line α)) : Journal α := lines.foldl (write preview) j

theorem events_prefix_write (x : Line α) : j.events <+: (j.write preview x).events := by
  cases x with
  | note n => simp [write]
  | report percent stage s => simp [write]

@[simp] theorem writeAll_cons (x : Line α) (lines : List (Line α)) :
    j.writeAll preview (x :: lines) = (j.write preview x).writeAll preview lines := rfl

theorem events_prefix_writeAll (lines : List (Line α)) : j.events <+: (j.writeAll preview lines).events := by
  induction lines generalizing j with
  | nil => exact List.prefix_rfl
  | cons x lines ih => exact (j.events_prefix_write preview x).trans (ih _)

/-- The first event that lines write stands behind those that were there. -/
theorem events_writeAll_report (percent : α) (stage : Stage) (s : PaletteSet α) (lines : List (Line α)) :
    (j.writeAll preview (.report percent stage s :: lines)).events[j.events.length]? =
      some (j.report percent stage s (preview s)).1 := by
  have hprefix := (j.report percent stage s (preview s)).2.events_prefix_writeAll preview lines
  rw [events_report] at hprefix
  have hlast := List.prefix_iff_getElem?.1 hprefix j.events.length (by simp)
  simpa [write] using hlast

/-- Every report is an event. -/
theorem length_events_writeAll (lines : List (Line α)) :
    (j.writeAll preview lines).events.length = j.events.length + lines.countP Line.isReport := by
  induction lines generalizing j with
  | nil => rfl
  | cons x lines ih =>
    rw [writeAll_cons, ih]
    cases x with
    | note n => simp [write, Line.isReport]
    | report percent stage s =>
      simp only [write, events_report, List.length_append, List.length_singleton, List.countP_cons, Line.isReport, if_true]
      omega

end Journal

/-! ## Watches -/

/-- The watch of a run that is never stopped. -/
def Watch.never : Watch α := fun _ _ => false

/-- A watch is first seen set at one of some events. -/
structure Watch.FirstSet (w : Watch α) (es : List (Event α)) (k : Nat) (e : Event α) : Prop where
  event : es[k]? = some e
  set : w k e = true
  quiet : ∀ i x, i < k → es[i]? = some x → w i x = false

namespace Plan

variable (p : Plan α) (a : Audience α)

theorem run_say_cons_note (n : Note α) (lines : List (Line α)) (j : Journal α) :
    StateT.run (ExceptT.run (forM (.note n :: lines) (p.say a))) j =
      StateT.run (ExceptT.run (forM lines (p.say a))) (j.note n) := by
  rw [List.forM_cons, Job.run_bind]
  rfl

theorem run_say_cons_report (percent : α) (stage : Stage) (s : PaletteSet α) (lines : List (Line α)) (j : Journal α) :
    StateT.run (ExceptT.run (forM (.report percent stage s :: lines) (p.say a))) j =
      if a.watch j.events.length (j.report percent stage s (p.previewFor a s)).1 then
        (.error (j.report percent stage s (p.previewFor a s)).1, (j.report percent stage s (p.previewFor a s)).2)
      else StateT.run (ExceptT.run (forM lines (p.say a))) (j.report percent stage s (p.previewFor a s)).2 := by
  rw [List.forM_cons, Job.run_bind, say, report, Job.run_report]
  cases a.watch j.events.length (j.report percent stage s (p.previewFor a s)).1 with
  | false => rfl
  | true => rfl

/-- A watch that stays quiet lets all lines be said. -/
theorem run_say_quiet (lines : List (Line α)) (j : Journal α)
    (h : ∀ k x, j.events.length ≤ k → (j.writeAll (p.previewFor a) lines).events[k]? = some x → a.watch k x = false) :
    StateT.run (ExceptT.run (forM lines (p.say a))) j = (.ok (), j.writeAll (p.previewFor a) lines) := by
  induction lines generalizing j with
  | nil => rfl
  | cons x lines ih =>
    cases x with
    | note n =>
      rw [run_say_cons_note]
      apply ih
      rw [Journal.events_note]
      exact h
    | report percent stage s =>
      have hquiet := h _ _ (Nat.le_refl _) (j.events_writeAll_report (p.previewFor a) percent stage s lines)
      rw [run_say_cons_report, hquiet]
      apply ih
      intro k x hk hx
      rw [Journal.events_report, List.length_append] at hk
      exact h k x (by omega) hx

/-- A watch that is first seen set at a report cuts the lines off behind it. -/
theorem run_say_stopped (lines : List (Line α)) (j : Journal α) {k : Nat} {e : Event α} (hk : j.events.length ≤ k)
    (h : Watch.FirstSet a.watch (j.writeAll (p.previewFor a) lines).events k e) :
    ∃ next, StateT.run (ExceptT.run (forM lines (p.say a))) j = (.error e, next) ∧
      next.events = (j.writeAll (p.previewFor a) lines).events.take (k + 1) := by
  induction lines generalizing j with
  | nil =>
    have hnone := h.event
    rw [show (j.writeAll (p.previewFor a) []).events = j.events from rfl, List.getElem?_eq_none hk] at hnone
    cases hnone
  | cons x lines ih =>
    cases x with
    | note n =>
      rw [run_say_cons_note]
      exact ih (j.note n) (by rwa [Journal.events_note]) h
    | report percent stage s =>
      have hhere := j.events_writeAll_report (p.previewFor a) percent stage s lines
      rw [run_say_cons_report]
      rcases Nat.eq_or_lt_of_le hk with rfl | hlt
      · obtain rfl : (j.report percent stage s (p.previewFor a s)).1 = e := Option.some.inj (hhere.symm.trans h.event)
        refine ⟨(j.report percent stage s (p.previewFor a s)).2, by rw [if_pos h.set], ?_⟩
        have hprefix := (j.report percent stage s (p.previewFor a s)).2.events_prefix_writeAll (p.previewFor a) lines
        have htake := List.prefix_iff_eq_take.1 hprefix
        rw [Journal.events_report] at htake ⊢
        simpa [Journal.write] using htake
      · rw [h.quiet _ _ hlt hhere]
        exact ih _ (by rw [Journal.events_report, List.length_append]; exact hlt) h

/-! ## Runs -/

/-- The learner that a run begins with. -/
def learner (g : γ) : Learner α γ :=
  .start (Shuffler.start p.tiles.samples.size g).1 (Shuffler.start p.tiles.samples.size g).2

/-- What has been said when all stages are over. -/
def told (g : γ) : Journal α := (Journal.empty.note p.sizes).writeAll (p.previewFor a) (p.script (p.learner g))

/-- The palettes when all stages are over. -/
def finalSet (g : γ) : PaletteSet α := p.deepened (p.afterRefining (p.learner g)).set

/-- What comes of a run that gets to its end. -/
def complete (g : γ) : Outcome α :=
  ⟨p.compose (p.finalSet g) false,
    ((p.told a g).report (Scalar.ofNat allDone) .done (p.finalSet g) (p.previewFor a (p.finalSet g))).2.note
      (.finished (p.compose (p.finalSet g) false).mse (p.afterRefining (p.learner g)).learner.bestError)⟩

theorem events_complete (g : γ) : ∃ e, (p.complete a g).journal.events = (p.told a g).events ++ [e] := by
  rw [complete, Journal.events_note, Journal.events_report]
  exact ⟨_, rfl⟩

theorem runWith_of_quiet (g : γ) (h : ∀ k x, (p.told a g).events[k]? = some x → a.watch k x = false) :
    p.runWith a g = p.complete a g := by
  have hsay := p.run_say_quiet a (p.script (p.learner g)) (Journal.empty.note p.sizes) fun k x _ hx => h k x hx
  have hrun : StateT.run (ExceptT.run (p.optimise a (p.learner g))) (Journal.empty.note p.sizes) =
      (.ok (p.finalSet g, (p.afterRefining (p.learner g)).learner), p.told a g) := by
    rw [optimise_eq, Job.run_bind, hsay]
    rfl
  unfold learner at hrun
  rw [runWith]
  dsimp only
  rw [hrun]
  rfl

theorem runWith_of_firstSet (g : γ) {k : Nat} {e : Event α} (h : Watch.FirstSet a.watch (p.told a g).events k e) :
    (p.runWith a g).composition = p.compose e.set true ∧
      (p.runWith a g).journal.events = (p.told a g).events.take (k + 1) := by
  obtain ⟨next, hsay, hnext⟩ := p.run_say_stopped a (p.script (p.learner g)) (Journal.empty.note p.sizes)
    (Nat.zero_le k) h
  have hrun : StateT.run (ExceptT.run (p.optimise a (p.learner g))) (Journal.empty.note p.sizes) = (.error e, next) := by
    rw [optimise_eq, Job.run_bind, hsay]
  unfold learner at hrun
  rw [runWith]
  dsimp only
  rw [hrun]
  refine ⟨rfl, ?_⟩
  dsimp only
  rw [Journal.events_note, hnext]
  rfl

end Plan

/-! ## Lengthened palettes -/

/-- A list lengthened to `n` entries by repeating its last one. -/
def lengthened {β : Type} (n : Nat) (xs : List β) : List β :=
  xs ++ xs.getLast?.toList.flatMap (List.replicate (n - xs.length))

theorem map_lengthened {β δ : Type} (f : β → δ) (n : Nat) (xs : List β) :
    (lengthened n xs).map f = lengthened n (xs.map f) := by
  rw [lengthened, lengthened, List.map_append, List.length_map, List.getLast?_map]
  cases xs.getLast? with
  | none => rfl
  | some x => simp

namespace PaletteSet

omit [Scalar α] in
theorem toLists_map {β : Type} (f : Rgb α → Rgb β) (s : PaletteSet α) :
    (s.map f).toLists = s.toLists.map (List.map f) := by
  rw [map, toLists, toLists, List.map_map, List.map_map]
  exact List.map_congr_left fun v _ => Vector.toList_map

omit [Scalar α] in
theorem toLists_padded (s : PaletteSet α) (n : Nat) : (s.padded n).toLists = s.toLists.map (lengthened n) := by
  by_cases hslots : 0 < s.slots
  · rw [padded, dif_pos hslots, toLists, toLists, List.map_map, List.map_map]
    refine List.map_congr_left fun v _ => ?_
    have hlast : v.toList.getLast? = some v[s.slots - 1] := by
      rw [List.getLast?_eq_getElem?]
      simp [hslots]
    simp [lengthened, hlast]
  · rw [padded, dif_neg hslots, toLists, List.map_map]
    refine List.map_congr_left fun v _ => ?_
    have hnil : v.toList = [] := List.length_eq_zero_iff.1 (by rw [Vector.length_toList]; omega)
    simp [lengthened, hnil]

end PaletteSet

/-- The palettes of a composition are the byte palettes of the set, lengthened. -/
theorem Plan.compose_palettes (p : Plan α) (s : PaletteSet α) (cancelled : Bool) :
    (p.compose s cancelled).palettes.map Vector.toList =
      s.toBytes.toLists.map (lengthened p.settings.colorsPerPalette) := by
  have hbytes : (s.padded p.settings.colorsPerPalette).toBytes.toLists =
      s.toBytes.toLists.map (lengthened p.settings.colorsPerPalette) := by
    rw [PaletteSet.toBytes, PaletteSet.toLists_map, PaletteSet.toLists_padded, PaletteSet.toBytes,
      PaletteSet.toLists_map, List.map_map, List.map_map]
    refine List.map_congr_left fun cs _ => ?_
    exact map_lengthened _ _ cs
  exact hbytes

/-! ## Quantizing -/

namespace Plan

variable (p : Plan α) (w : Watch α) (preview : Bool) (g : γ)

theorem runWith_never : p.runWith ⟨.never, preview⟩ g = p.complete ⟨w, preview⟩ g :=
  p.runWith_of_quiet ⟨.never, preview⟩ g fun _ _ _ => rfl

/-- With nothing to optimise there is one event, and no watch is asked. -/
theorem runIdle_never :
    p.runIdle ⟨w, preview⟩ = p.runIdle ⟨.never, preview⟩ ∧ (p.runIdle ⟨.never, preview⟩).journal.events.length = 1 := by
  refine ⟨rfl, ?_⟩
  rw [runIdle]
  dsimp only
  rw [Journal.events_report, Journal.events_note]
  rfl

/-- A run that is stopped before its last event has the events of the run that nobody stops, up to that one, and composes its
palettes. -/
theorem run_of_firstSet {k : Nat} {e : Event α}
    (hk : k + 1 < (p.run ⟨.never, preview⟩ g).journal.events.length)
    (h : Watch.FirstSet w (p.run ⟨.never, preview⟩ g).journal.events k e) :
    (p.run ⟨w, preview⟩ g).composition = p.compose e.set true ∧
      (p.run ⟨w, preview⟩ g).journal.events = (p.run ⟨.never, preview⟩ g).journal.events.take (k + 1) := by
  unfold run at hk h ⊢
  split
  · rename_i hnone
    rw [if_pos hnone, (p.runIdle_never w preview).2] at hk
    omega
  · rename_i hsome
    obtain ⟨last, hlast⟩ := p.events_complete ⟨w, preview⟩ g
    rw [if_neg hsome, p.runWith_never w, hlast, List.length_append, List.length_singleton] at hk
    rw [if_neg hsome, p.runWith_never w, hlast] at h
    have hcut : Watch.FirstSet w (p.told ⟨w, preview⟩ g).events k e := by
      refine ⟨?_, h.set, fun i x hi hx => h.quiet i x hi ?_⟩
      · rw [← h.event, List.getElem?_append_left (by omega)]
      · rw [← hx, List.getElem?_append_left (by omega)]
    obtain ⟨hcomposition, hevents⟩ := p.runWith_of_firstSet ⟨w, preview⟩ g hcut
    rw [p.runWith_never w, hlast, List.take_append_of_le_length (by omega)]
    exact ⟨hcomposition, hevents⟩

/-- A run whose watch is quiet until the last event is the run that nobody stops. -/
theorem run_of_quiet
    (h : ∀ k e, k + 1 < (p.run ⟨.never, preview⟩ g).journal.events.length →
      (p.run ⟨.never, preview⟩ g).journal.events[k]? = some e → w k e = false) :
    p.run ⟨w, preview⟩ g = p.run ⟨.never, preview⟩ g := by
  unfold run at h ⊢
  split
  · exact (p.runIdle_never w preview).1
  · rename_i hsome
    obtain ⟨last, hlast⟩ := p.events_complete ⟨w, preview⟩ g
    rw [if_neg hsome, p.runWith_never w, hlast] at h
    rw [p.runWith_never w]
    refine p.runWith_of_quiet ⟨w, preview⟩ g fun k x hx => ?_
    have hk := (List.getElem?_eq_some_iff.1 hx).1
    refine h k x ?_ ?_
    · rw [List.length_append, List.length_singleton]
      omega
    · rw [List.getElem?_append_left hk, hx]

theorem run_never_not_cancelled : (p.run ⟨.never, preview⟩ g).composition.cancelled = false := by
  rw [run]
  split
  · rfl
  · rw [p.runWith_never .never]
    rfl

end Plan

namespace Draft

theorem settings_of_plan {d : Draft} {means : Cluster.Means Float} {b : Buffer} {p : Plan Float}
    (hp : d.planWith means b = .ok p) :
    d.settings = .ok p.settings := by
  simp only [planWith, bind_eq_ok] at hp
  obtain ⟨s, hs, _, _, _, _, _, _, _, _, _, _, _, _, hmake⟩ := hp
  cases hmake
  exact hs

theorem means_of_plan {d : Draft} {means : Cluster.Means Float} {b : Buffer} {p : Plan Float}
    (hp : d.planWith means b = .ok p) : p.means = means := by
  simp only [planWith, bind_eq_ok] at hp
  obtain ⟨s, -, _, _, _, _, _, _, _, _, _, _, _, _, hmake⟩ := hp
  cases hmake
  rfl

end Draft

/-- Growth reports every slot that it adds. -/
theorem Plan.countP_growMoments (p : Plan α) (n : Nat) (s : PaletteSet α) (l : Learner α γ) :
    ((Learner.growMoments p.problem p.growRates n s l).flatMap p.lines).countP Line.isReport = n := by
  induction n generalizing s l with
  | zero => rfl
  | succ n ih =>
    have hrejected : ((l.growOne p.problem s p.growRates).moment.toList.flatMap p.lines).countP Line.isReport = 0 := by
      simp only [Learner.growOne, Learner.judge]
      split <;> rfl
    rw [Learner.growMoments, List.flatMap_append, List.countP_append, hrejected, List.flatMap_cons, List.countP_append, ih]
    simp [Plan.lines, Line.isReport, Nat.add_comm]

/-- Besides the slots that it adds, a run reports its start, the end of growth and its end. -/
theorem Plan.growth_lt_length_events (p : Plan α) (preview : Bool) (g : γ) (h : 0 < p.tiles.samples.size) :
    p.settings.colorsPerPalette - p.start.slots + 2 < (p.run ⟨.never, preview⟩ g).journal.events.length := by
  obtain ⟨last, hlast⟩ := p.events_complete ⟨.never, preview⟩ g
  have hempty : ¬ p.tiles.samples.isEmpty = true := by simpa using h.ne'
  have hcount : p.settings.colorsPerPalette - p.start.slots + 2 ≤ (p.script (p.learner g)).countP Line.isReport := by
    simp only [script, growLines, List.cons_append, List.append_assoc, List.countP_cons, List.countP_append,
      countP_growMoments, Line.isReport, if_true]
    omega
  rw [run, if_neg hempty, p.runWith_never .never, hlast, told, List.length_append, Journal.length_events_writeAll]
  simp only [List.length_singleton]
  omega

/-- **Cancelling.** Let settings and a buffer be accepted, and compare the run that is never stopped with the run that any
watch is asked about. If the watch is first seen set before the last event, the events are the same up to that one, and its
palettes as bytes, lengthened to the number of colours by repeating their last slots, are those of a result that is marked as
cancelled. If it is set only at the last event or never, all is the same and nothing is cancelled. With no samples there is
one event, and nothing is ever cancelled. -/
theorem quantize_cancelled {γ : Type} [OrderSource γ] {d : Draft} {means : Cluster.Means Float} (hmeans : means.Lawful)
    {b : Buffer} {p : Plan Float} {source : Result γ} {n : Number} {g : γ} (workers : Value)
    (hp : d.planWith means b = .ok p) (hm : d.missing = []) (hw : Number.ofValue workers = .ok n) (hg : source = .ok g)
    (w : Watch Float) (preview : Bool) :
    ∃ full o : Outcome Float,
      d.quantizeWith means b source workers ⟨.never, preview⟩ = .ok (p, full) ∧
      d.quantizeWith means b source workers ⟨w, preview⟩ = .ok (p, o) ∧
      full.composition.cancelled = false ∧
      (∀ k e, k + 1 < full.journal.events.length → w.FirstSet full.journal.events k e →
        o.journal.events = full.journal.events.take (k + 1) ∧ o.composition = p.compose e.set true ∧
        o.composition.cancelled = true ∧ o.composition.slots = p.settings.colorsPerPalette ∧
        o.composition.palettes.map Vector.toList = e.set.toBytes.toLists.map (lengthened p.settings.colorsPerPalette)) ∧
      ((∀ k e, k + 1 < full.journal.events.length → full.journal.events[k]? = some e → w k e = false) → o = full) ∧
      (p.tiles.samples.size = 0 → full.journal.events.length = 1 ∧ o = full) := by
  have hpmeans : p.means.Lawful := by
    rw [Draft.means_of_plan hp]
    exact hmeans
  refine ⟨p.run ⟨.never, preview⟩ g, p.run ⟨w, preview⟩ g, Draft.quantizeWith_eq_ok hp hm hw hg _,
    Draft.quantizeWith_eq_ok hp hm hw hg _, p.run_never_not_cancelled preview g, ?_, p.run_of_quiet w preview g, ?_⟩
  · intro k e hk h
    obtain ⟨hcomposition, hevents⟩ := p.run_of_firstSet w preview g hk h
    have hshape : p.Shape e.set :=
      ((p.run_reached _ g).journal.events e (List.mem_of_getElem? h.event)).shape hpmeans
        (Draft.inRange (Draft.settings_of_plan hp))
    refine ⟨hevents, hcomposition, by rw [hcomposition]; rfl, ?_, by rw [hcomposition]; exact p.compose_palettes e.set true⟩
    rw [hcomposition]
    exact (PaletteSet.padded_slots _ _ hshape.slots_pos).trans (Nat.max_eq_left hshape.slots_le)
  · intro hnone
    have hempty : p.tiles.samples.isEmpty = true := by simpa using hnone
    rw [Plan.run, Plan.run, if_pos hempty, if_pos hempty]
    exact ⟨(p.runIdle_never w preview).2, (p.runIdle_never w preview).1⟩

/-- A run on a small image, stopped at its fourth report. -/
theorem quantize_cancelled_small :
    ∃ p full o e, Draft.small.quantize Buffer.small (.int 7) (.int 2) ⟨.never, true⟩ = .ok (p, full) ∧
      Draft.small.quantize Buffer.small (.int 7) (.int 2) ⟨fun i _ => i == 3, true⟩ = .ok (p, o) ∧
      full.composition.cancelled = false ∧ full.journal.events[3]? = some e ∧ 4 < full.journal.events.length ∧
      o.journal.events = full.journal.events.take 4 ∧ o.composition.cancelled = true ∧ o.composition.slots = 4 ∧
      o.composition.palettes.map Vector.toList = e.set.toBytes.toLists.map (lengthened 4) := by
  obtain ⟨p, hp, hsamples, hcolors, hzero, -, -⟩ := Draft.small_plan
  have hm : Draft.small.missing = [] := by decide +kernel
  have hg : Generator.ofValue (.int 7) = .ok (Generator.ofSeed 7) := rfl
  obtain ⟨full, o, hfull, ho, hcancelled, hstopped, -, -⟩ :=
    quantize_cancelled Cluster.lloyd_lawful (.int 2) hp hm rfl hg (fun i _ => i == 3) true
  have hmany : 4 < full.journal.events.length := by
    have hrun := hfull.symm.trans (Draft.quantizeWith_eq_ok hp hm rfl hg _)
    have hstart : p.start.slots = 2 := by rw [Plan.start, Start.palettes, PaletteSet.ofSeeds_slots, hzero]; rfl
    have hlt := p.growth_lt_length_events true (Generator.ofSeed 7) (by omega)
    rw [hcolors, hstart] at hlt
    cases hrun
    exact hlt
  obtain ⟨e, he⟩ : ∃ e, full.journal.events[3]? = some e := ⟨_, List.getElem?_eq_getElem (by omega)⟩
  obtain ⟨hevents, -, hmarked, hslots, hpalettes⟩ := hstopped 3 e hmany
    ⟨he, rfl, fun i x hi _ => by simpa using hi.ne⟩
  rw [hcolors] at hslots hpalettes
  exact ⟨p, full, o, e, hfull, ho, hcancelled, he, hmany, hevents, hmarked, hslots, hpalettes⟩

end Tessera
