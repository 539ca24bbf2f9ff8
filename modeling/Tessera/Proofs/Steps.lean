import Mathlib
import Tessera.Proofs.Palettes
import Tessera.Run.Journal
/-!
# What a run does to palettes

Learning, reseeding and correcting are sequences of writes to single slots. Each of them comes with a principle: what every
write keeps, the whole keeps. A job keeps a property of palette sets when all sets in its journal, the set that it hands
over and the set that it stops with have it (`Job.Yields`); the phases of learning do so when their steps do.
-/

namespace Tessera

variable {α γ : Type} [Scalar α] {I : PaletteSet α → Prop}

/-! ## Sequences of writes -/

/-- Samples move single colours. -/
theorem Learn.run_induct (ts : TileSet) {s : PaletteSet α} (steps : List (Nat × α)) (hs : I s)
    (hmove : ∀ s q x rate, x ∈ ts.samples → rate ∈ steps.map Prod.snd → I s →
      I (Learn.moveIn s q (Rgb.ofBytes x.color) rate)) : I (Learn.run ts s steps) := by
  refine List.foldlRecOn steps _ (motive := fun x : Learn.Cached α => I x.set) hs ?_
  intro x hx step hstep
  rw [Learn.moveCachedAt]
  split
  · rename_i sample hsample
    exact hmove _ _ _ _ (Array.mem_of_getElem? hsample) (List.mem_map_of_mem hstep) hx
  · exact hx

theorem Learn.run_sameShape (ts : TileSet) (s : PaletteSet α) (steps : List (Nat × α)) : s.SameShape (Learn.run ts s steps) :=
  Learn.run_induct ts steps (PaletteSet.SameShape.refl s) fun _ _ _ _ _ _ ht => ht.changeColor _ _ _

namespace Reseed

section

-- all of reseeding is putting byte colours into slots
variable (hput : ∀ s q slot c, I s → I (s.setColor q slot (Rgb.ofBytes c)))
include hput

theorem fillPalette_induct {s : PaletteSet α} (hs : I s) (p : Nat) (colors : List (Rgb UInt8)) :
    I (fillPalette s p colors) := by
  refine List.foldlRecOn _ _ (motive := I) hs ?_
  intro s hs i _
  split
  · exact hput _ _ _ _ hs
  · exact hs

variable {x : Changed α} (hx : I x.set) (factor : α)
include hx

theorem reseedPalette_induct (rs : Residuals α) (contrib : List (List α)) (taken : List (Rgb UInt8)) (p : Nat) :
    I (reseedPalette factor rs contrib taken x p).set := by
  rw [reseedPalette]
  split
  · exact hx
  · refine List.foldlRecOn _ _ (motive := fun x : Changed α => I x.set) hx ?_
    intro x hx step _
    exact hput _ _ _ _ hx

theorem reseedShared_induct (rs : Residuals α) (contrib : List (List α)) :
    I (reseedShared factor rs contrib x).1.set := by
  simp only [reseedShared]
  split
  · exact hx
  split
  · exact hx
  split
  · exact hx
  · exact hput _ _ _ _ hx

theorem reseedColors_induct (ts : TileSet) (assignment : List Nat) : I (reseedColors factor ts assignment x).set := by
  simp only [reseedColors]
  split
  · exact hx
  have hshared : ∀ rs contrib, I (if x.set.zero == .shared then reseedShared factor rs contrib x else (x, [])).1.set := by
    intro rs contrib
    split
    · exact reseedShared_induct hput hx factor rs contrib
    · exact hx
  split
  · exact hshared _ _
  · refine List.foldlRecOn _ _ (motive := fun x : Changed α => I x.set) (hshared _ _) ?_
    intro x hx p _
    exact reseedPalette_induct hput hx _ _ _ _ p

theorem reseedWeakest_induct (ts : TileSet) (errors : List (List α)) (assignment : List Nat) :
    I (reseedWeakest factor ts errors assignment x).set := by
  rw [reseedWeakest]
  split
  · exact hx
  split
  · exact hx
  · exact fillPalette_induct hput hx _ _

/-- Reseeding puts colours of the image into slots. -/
theorem replace_induct (rule : ReseedRule α) (ts : TileSet) : I (replace rule ts x).set := by
  rw [replace]
  split
  · exact hx
  · have hcolors := reseedColors_induct hput hx rule.colorFactor ts
    dsimp only
    split
    · exact reseedWeakest_induct hput (hcolors _) _ ts _ _
    · exact hcolors _

end

end Reseed

/-- Recentring puts means into slots. -/
theorem Depth.recenter_induct (ts : TileSet) {s : PaletteSet α} (hs : I s)
    (hput : ∀ t p k c, Depth.slotMean s (Reseed.residuals ts s (Fit.assignment none ts s)) p k = some c → I t →
      I (t.setColor p k c)) : I (Depth.recenter ts s) := by
  refine List.foldlRecOn _ _ (motive := I) hs ?_
  rintro t ht ⟨p, k⟩ _
  dsimp only
  split
  · exact hput _ _ _ _ ‹_› ht
  · exact ht

theorem Depth.recenter_sameShape (ts : TileSet) (s : PaletteSet α) : s.SameShape (Depth.recenter ts s) :=
  Depth.recenter_induct ts (PaletteSet.SameShape.refl s) fun _ _ _ _ _ ht => ht.changeColor _ _ _

/-! ## Journals of palette sets -/

/-- The palette sets that a moment tells of. -/
def Moment.sets : Moment α → List (PaletteSet α)
  | .rejected .. => []
  | .grown s => [s]
  | .replaced _ _ _ best => [best.set]
  | .refined _ _ _ _ best => [best.set]
  | .corrected _ s => [s]

/-- A listener that keeps what it is told. -/
def Moment.keep (x : Moment α) : StateM (List (Moment α)) Unit := modify (· ++ [x])

/-- All palette sets of a journal have a property. -/
structure Journal.Holds (I : PaletteSet α → Prop) (j : Journal α) : Prop where
  events : ∀ e ∈ j.events, I e.set
  moments : ∀ m, Note.moment m ∈ j.notes → ∀ s ∈ m.sets, I s

namespace Journal

omit [Scalar α] in
@[simp] theorem events_note (j : Journal α) (n : Note α) : (j.note n).events = j.events := by simp [events, note]

omit [Scalar α] in
@[simp] theorem notes_note (j : Journal α) (n : Note α) : (j.note n).notes = j.notes ++ [n] := by simp [notes, note]

@[simp] theorem events_report (j : Journal α) (percent : α) (stage : Stage) (s : PaletteSet α)
    (preview : Option (Composition α)) :
    (j.report percent stage s preview).2.events = j.events ++ [(j.report percent stage s preview).1] := by
  simp [events, report]

@[simp] theorem notes_report (j : Journal α) (percent : α) (stage : Stage) (s : PaletteSet α)
    (preview : Option (Composition α)) : (j.report percent stage s preview).2.notes = j.notes := by
  simp [notes, report]

theorem Holds.empty : Holds I (Journal.empty : Journal α) := ⟨by simp [Journal.empty, Journal.events],
  by simp [Journal.empty, Journal.notes]⟩

omit [Scalar α] in
theorem Holds.note {j : Journal α} (h : j.Holds I) {n : Note α} (hn : ∀ m, n = .moment m → ∀ s ∈ m.sets, I s) :
    (j.note n).Holds I := by
  refine ⟨by simpa using h.events, fun m hm => ?_⟩
  rw [notes_note, List.mem_append, List.mem_singleton] at hm
  rcases hm with hm | rfl
  · exact h.moments m hm
  · exact hn m rfl

theorem Holds.report {j : Journal α} (h : j.Holds I) {s : PaletteSet α} (hs : I s) (percent : α) (stage : Stage)
    (preview : Option (Composition α)) : (j.report percent stage s preview).2.Holds I := by
  refine ⟨fun e he => ?_, by simpa using h.moments⟩
  rw [events_report, List.mem_append, List.mem_singleton] at he
  rcases he with he | rfl
  · exact h.events e he
  · exact hs

end Journal

/-! ## Jobs -/

/-- From a journal with a property a job goes on to one, and either hands over what it promises or stops at a report of a
set with the property. -/
def Job.Yields {β : Type} (I : PaletteSet α → Prop) (x : Job α β) (Q : β → Prop) : Prop :=
  ∀ j : Journal α, j.Holds I → (StateT.run (ExceptT.run x) j).2.Holds I ∧
    match (StateT.run (ExceptT.run x) j).1 with
    | .ok b => Q b
    | .error e => I e.set

namespace Job

variable {β δ : Type}

omit [Scalar α] in
theorem Yields.pure {Q : β → Prop} {b : β} (h : Q b) : Yields I (pure b : Job α β) Q := fun _ hj => ⟨hj, h⟩

omit [Scalar α] in
theorem run_bind (x : Job α β) (f : β → Job α δ) (j : Journal α) :
    StateT.run (ExceptT.run (x >>= f)) j =
      match StateT.run (ExceptT.run x) j with
      | (.ok b, next) => StateT.run (ExceptT.run (f b)) next
      | (.error e, next) => (.error e, next) := by
  rw [ExceptT.run_bind, StateT.run_bind]
  rcases StateT.run (ExceptT.run x) j with ⟨_ | b, next⟩
  · rfl
  · rfl

omit [Scalar α] in
theorem Yields.bind {x : Job α β} {f : β → Job α δ} {Q : β → Prop} {R : δ → Prop} (hx : Yields I x Q)
    (hf : ∀ b, Q b → Yields I (f b) R) : Yields I (x >>= f) R := by
  intro j hj
  have hx := hx j hj
  rw [run_bind]
  generalize StateT.run (ExceptT.run x) j = r at hx ⊢
  obtain ⟨e | b, next⟩ := r
  · exact hx
  · exact hf b hx.2 next hx.1

omit [Scalar α] in
theorem note_yields {n : Note α} (hn : ∀ m, n = .moment m → ∀ s ∈ m.sets, I s) :
    Yields I (note n) fun _ => True :=
  fun _ hj => ⟨hj.note hn, trivial⟩

theorem run_report (watch : Watch α) (preview : PaletteSet α → Option (Composition α)) (percent : α) (stage : Stage)
    (s : PaletteSet α) (j : Journal α) :
    StateT.run (ExceptT.run (report watch preview percent stage s)) j =
      (if watch j.events.length (j.report percent stage s (preview s)).1
        then .error (j.report percent stage s (preview s)).1 else .ok (),
        (j.report percent stage s (preview s)).2) := by
  change StateT.run (ExceptT.run (if watch j.events.length (j.report percent stage s (preview s)).1
    then throw (j.report percent stage s (preview s)).1 else pure () : Job α Unit)) _ = _
  split <;> rfl

theorem report_yields (watch : Watch α) (preview : PaletteSet α → Option (Composition α)) (percent : α) (stage : Stage)
    {s : PaletteSet α} (hs : I s) : Yields I (report watch preview percent stage s) fun _ => True := by
  intro j hj
  refine ⟨by rw [run_report]; exact hj.report hs percent stage (preview s), ?_⟩
  rw [run_report]
  split
  · trivial
  · rename_i h
    split at h
    · cases h; exact hs
    · cases h

end Job

end Tessera
