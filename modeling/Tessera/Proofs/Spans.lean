import Mathlib
import Tessera.Fit.Residual
import Tessera.Proofs.Composition
/-!
# Spans and workers

Long lists are cut into spans, and the spans may be shared out among workers: a worker that is free takes the next span that
waits, several are worked on at once, and they are finished in any order. Every part is put into the place of its span, so
however the work goes it comes to the same parts (`Span.yields_iff`). The spans are the rows, each of them once and in
order (`Span.flatMap_rows_split`), and what is worked out for a row depends on no other row. So neither spans nor workers
nor groups within a span can be told from the results (`Span.works_iff`, `Span.rows_alone`).
-/

namespace Tessera

namespace Span

/-! ## The spans of a height -/

/-- The rows of a span. -/
def rows (span : Nat × Nat) : List Nat := List.range' span.1 (span.2 - span.1)

theorem mem_starting {size start stop : Nat} {span : Nat × Nat} (h : span ∈ starting size start stop) :
    span.1 < span.2 ∧ span.2 - span.1 ≤ size := by
  fun_induction starting size start stop with
  | case1 start hlt ih =>
    rcases List.mem_cons.1 h with rfl | hlater
    · constructor
      · show start < min (start + size) stop
        omega
      · show min (start + size) stop - start ≤ size
        omega
    · exact ih hlater
  | case2 start hge => cases h

theorem flatMap_rows_starting {size : Nat} (hsize : 0 < size) (start stop : Nat) :
    (starting size start stop).flatMap rows = List.range' start (stop - start) := by
  fun_induction starting size start stop with
  | case1 start hlt ih =>
    have hrest : List.range' (start + size) (stop - (start + size)) =
        List.range' (min (start + size) stop) (stop - min (start + size) stop) := by
      by_cases hlast : start + size ≤ stop
      · rw [min_eq_left hlast]
      · rw [min_eq_right (by omega), Nat.sub_self, Nat.sub_eq_zero_of_le (by omega)]
        rfl
    have hfirst : rows (start, min (start + size) stop) ++ List.range' (start + (min (start + size) stop - start))
        (stop - min (start + size) stop) = List.range' start (stop - start) := by
      rw [rows, List.range'_append_1]
      congr 1
      omega
    rw [List.flatMap_cons, ih, hrest, ← hfirst]
    congr 2
    omega
  | case2 start hge =>
    rw [Nat.sub_eq_zero_of_le (by omega)]
    rfl

theorem starting_eq_nil_iff {size : Nat} (hsize : 0 < size) (start stop : Nat) :
    starting size start stop = [] ↔ stop ≤ start := by
  rw [starting]
  by_cases hlt : start < stop ∧ 0 < size
  · simp only [hlt, and_self, dif_pos, reduceCtorEq, false_iff]
    omega
  · simp only [hlt, dif_neg, not_false_iff, true_iff]
    omega

section

variable (height size : Int)

theorem mem_split {span : Nat × Nat} (h : span ∈ split height size) :
    span.1 < span.2 ∧ ((span.2 - span.1 : Nat) : Int) ≤ max 1 size := by
  obtain ⟨hlt, hle⟩ := mem_starting h
  exact ⟨hlt, by omega⟩

/-- End to end the spans are the rows of the height. -/
theorem flatMap_rows_split : (split height size).flatMap rows = List.range height.toNat := by
  rw [split, flatMap_rows_starting (by omega), Nat.sub_zero, List.range_eq_range']

theorem split_eq_nil_iff : split height size = [] ↔ height ≤ 0 := by
  rw [split, starting_eq_nil_iff (by omega)]
  omega

end

/-! ## Workers -/

/-- Work on spans that is shared out: the numbers of the spans that wait and of those that are worked on, and the parts that
are done, each in the place of its span. -/
structure Pool (β : Type) where
  waiting : List Nat
  running : List Nat
  parts : List (Option β)

namespace Pool

variable {β : Type}

/-- Nothing has been taken yet. -/
def start (spans : List (Nat × Nat)) : Pool β := ⟨List.range spans.length, [], List.replicate spans.length none⟩

/-- Nothing is left to do. -/
def Finished (p : Pool β) : Prop := p.waiting = [] ∧ p.running = []

variable (workers : Nat) (f : Nat → Nat → β) (spans : List (Nat × Nat))

/-- A free worker takes the next span, or one of those that are worked on is finished, whichever it is. -/
inductive Step : Pool β → Pool β → Prop
  | take (i : Nat) (waiting running : List Nat) (parts : List (Option β)) (hfree : running.length < workers) :
      Step ⟨i :: waiting, running, parts⟩ ⟨waiting, i :: running, parts⟩
  | finish (i a b : Nat) (waiting before after : List Nat) (parts : List (Option β)) (hspan : spans[i]? = some (a, b)) :
      Step ⟨waiting, before ++ i :: after, parts⟩ ⟨waiting, before ++ after, parts.set i (some (f a b))⟩

/-- Every span waits, or is worked on, or has its own part in its place. -/
structure Sound (p : Pool β) : Prop where
  length_eq : p.parts.length = spans.length
  lt : ∀ i ∈ p.waiting ++ p.running, i < spans.length
  settled : ∀ i a b, spans[i]? = some (a, b) → i ∈ p.waiting ∨ i ∈ p.running ∨ p.parts[i]? = some (some (f a b))

theorem sound_start : Sound f spans (start spans) := by
  refine ⟨by simp [start], by simp [start], ?_⟩
  intro i a b hspan
  left
  simpa [start] using (List.getElem?_eq_some_iff.1 hspan).1

variable {workers f spans} {p q : Pool β}

theorem Sound.step (h : Sound f spans p) (hstep : Step workers f spans p q) : Sound f spans q := by
  cases hstep with
  | take i waiting running parts hfree =>
    refine ⟨h.length_eq, ?_, ?_⟩
    · intro j hj
      refine h.lt j ?_
      simp only [List.mem_append, List.mem_cons] at hj ⊢
      tauto
    · intro j a b hspan
      have hj := h.settled j a b hspan
      simp only [List.mem_cons] at hj ⊢
      tauto
  | finish i a b waiting before after parts hspan =>
    refine ⟨by rw [List.length_set]; exact h.length_eq, ?_, ?_⟩
    · intro j hj
      refine h.lt j ?_
      simp only [List.mem_append, List.mem_cons] at hj ⊢
      tauto
    · intro j a' b' hj
      by_cases hij : i = j
      · -- the span that has just been finished
        subst hij
        obtain ⟨rfl, rfl⟩ : a = a' ∧ b = b' := by simpa [hspan] using hj
        have hlt : i < parts.length := h.length_eq ▸ (List.getElem?_eq_some_iff.1 hspan).1
        exact Or.inr (Or.inr (by simp [hlt]))
      · have hother := h.settled j a' b' hj
        simp only [List.mem_append, List.mem_cons, List.getElem?_set_ne hij] at hother ⊢
        rcases hother with hw | (hr | rfl | hr) | hp
        · exact Or.inl hw
        · exact Or.inr (Or.inl (Or.inl hr))
        · exact absurd rfl hij
        · exact Or.inr (Or.inl (Or.inr hr))
        · exact Or.inr (Or.inr hp)

theorem Sound.steps (h : Sound f spans p) (hsteps : Relation.ReflTransGen (Step workers f spans) p q) : Sound f spans q := by
  induction hsteps with
  | refl => exact h
  | tail _ hstep ih => exact ih.step hstep

/-- When nothing is left to do, the parts stand in the order of the spans. -/
theorem Sound.parts_eq (h : Sound f spans p) (hdone : p.Finished) : p.parts = (mapSpans f spans).map some := by
  obtain ⟨hwaiting, hrunning⟩ := hdone
  apply List.ext_getElem?
  intro i
  rw [mapSpans, List.map_map, List.getElem?_map]
  cases hspan : spans[i]? with
  | none =>
    rw [List.getElem?_eq_none_iff] at hspan
    simpa [h.length_eq] using hspan
  | some span =>
    have hpart := h.settled i span.1 span.2 hspan
    rw [hwaiting, hrunning] at hpart
    simpa using hpart

/-- What is still to be done: a span that waits has to be taken and finished. -/
def load (p : Pool β) : Nat := 2 * p.waiting.length + p.running.length

theorem Step.load_lt (hstep : Step workers f spans p q) : q.load < p.load := by
  cases hstep with
  | take i waiting running parts hfree =>
    simp only [load, List.length_cons]
    omega
  | finish i a b waiting before after parts hspan =>
    simp only [load, List.length_append, List.length_cons]
    omega

/-- With a worker there is always something that can be done next. -/
theorem Sound.exists_step (h : Sound f spans p) (hworkers : 0 < workers) (hleft : ¬ p.Finished) :
    ∃ q, Step workers f spans p q := by
  obtain ⟨waiting, running, parts⟩ := p
  cases running with
  | cons i rest =>
    have hlt := h.lt i (by simp)
    exact ⟨_, Step.finish i _ _ waiting [] rest parts (List.getElem?_eq_getElem hlt)⟩
  | nil =>
    cases waiting with
    | nil => exact absurd ⟨rfl, rfl⟩ hleft
    | cons i rest => exact ⟨_, Step.take i rest [] parts hworkers⟩

/-- However far the work has come, it can be brought to an end. -/
theorem Sound.exists_finished (h : Sound f spans p) (hworkers : 0 < workers) :
    ∃ q, Relation.ReflTransGen (Step workers f spans) p q ∧ q.Finished := by
  induction hload : p.load using Nat.strong_induction_on generalizing p with
  | _ n ih =>
    by_cases hdone : p.Finished
    · exact ⟨p, .refl, hdone⟩
    · obtain ⟨q, hstep⟩ := h.exists_step hworkers hdone
      obtain ⟨r, hsteps, hr⟩ := ih q.load (hload ▸ hstep.load_lt) (h.step hstep) rfl
      exact ⟨r, .head hstep hsteps, hr⟩

end Pool

/-- Working on spans with a number of workers can come to these parts. A single worker, or a single span, needs no sharing
out. -/
def Yields {β : Type} (workers : Int) (f : Nat → Nat → β) (spans : List (Nat × Nat)) (parts : List β) : Prop :=
  if workers ≤ 1 ∨ spans.length ≤ 1 then parts = mapSpans f spans
  else ∃ p, Relation.ReflTransGen (Pool.Step workers.toNat f spans) (Pool.start spans) p ∧ p.Finished ∧
    p.parts = parts.map some

/-- **Workers.** Whatever their number and whichever is done first, there are parts that they come to, and no others than
those that one worker comes to. -/
theorem yields_iff {β : Type} (workers : Int) (f : Nat → Nat → β) (spans : List (Nat × Nat)) (parts : List β) :
    Yields workers f spans parts ↔ parts = mapSpans f spans := by
  rw [Yields]
  by_cases hone : workers ≤ 1 ∨ spans.length ≤ 1
  · rw [if_pos hone]
  · rw [if_neg hone]
    have hstart : Pool.Sound f spans (Pool.start spans) := Pool.sound_start f spans
    constructor
    · rintro ⟨p, hsteps, hdone, hparts⟩
      rw [(hstart.steps hsteps).parts_eq hdone] at hparts
      exact (List.map_injective_iff.2 (Option.some_injective β) hparts).symm
    · rintro rfl
      have hworkers : 0 < workers.toNat := by omega
      obtain ⟨p, hsteps, hdone⟩ := hstart.exists_finished hworkers
      exact ⟨p, hsteps, hdone, (hstart.steps hsteps).parts_eq hdone⟩

/-- Working on a list in spans of some size, with a number of workers, can come to these results. -/
def Works {β γ : Type} (workers size : Int) (f : List β → List γ) (xs : List β) (out : List γ) : Prop :=
  ∃ parts, Yields workers (fun a b => f ((xs.drop a).take (b - a))) (split xs.length size) parts ∧ out = parts.flatten

/-- Work that treats every row for itself comes to the results of the rows, with any spans and any workers. -/
theorem works_iff {β γ : Type} (workers size : Int) (f : List β → List γ) (g : β → γ) {xs : List β} {out : List γ}
    (h : ∀ span, (∀ x ∈ span, x ∈ xs) → f span = span.map g) : Works workers size f xs out ↔ out = xs.map g := by
  have hsize : split xs.length size = split xs.length size.toNat := by
    rw [split, split]
    congr 1
    omega
  have hchunked : (mapSpans (fun a b => f ((xs.drop a).take (b - a))) (split xs.length size)).flatten = xs.map g := by
    rw [hsize]
    exact chunked_eq_map size.toNat f g xs h
  constructor
  · rintro ⟨parts, hparts, rfl⟩
    rw [(yields_iff ..).1 hparts, hchunked]
  · rintro rfl
    exact ⟨_, (yields_iff ..).2 rfl, hchunked.symm⟩

end Span

/-! ## Row by row -/

section

variable {α : Type} [Scalar α]

theorem Compose.pixelIndicesBy_eq_map (chunk : Nat) (rule : Option (MixRule α)) {s : PaletteSet α} {spots : List (Nat × Spot)}
    (h : ∀ q ∈ spots, q.1 < s.size) :
    pixelIndicesBy chunk rule s spots = spots.map fun q => pixelIndex rule s q.1 q.2 :=
  Span.chunked_eq_map _ _ _ _ fun span hspan => spanIndices_eq_map rule s span fun q hq => h q (hspan q hq)

/-- **Spans and workers do not show.** The spans of a height are not empty, not longer than the size asked for, and end to
end its rows, each of them once. Whatever the size of the spans and the number of workers, the costs of entries, the errors
of tiles, the residuals and the numbers of pixels are those of every row for itself: the number of a pixel is found from its
colour, its palette and its rank alone, though the pixels of a palette are searched together. -/
theorem Span.rows_alone (workers chunk : Int) :
    (∀ height : Int,
      (∀ span ∈ split height chunk, span.1 < span.2 ∧ ((span.2 - span.1 : Nat) : Int) ≤ max 1 chunk) ∧
      (split height chunk).flatMap rows = List.range height.toNat ∧ (split height chunk = [] ↔ height ≤ 0)) ∧
    (∀ (rule : Option (MixRule α)) (ts : TileSet) (s : PaletteSet α),
      (∀ costs, Works workers chunk (Fit.spanCosts rule s) ts.entries costs ↔
        costs = ts.entries.map (Fit.entryCosts rule s)) ∧
      Fit.errorsBy chunk.toNat rule ts s =
        (List.range ts.tiles.length).map fun t => (List.range s.size).map fun p =>
          Scalar.sum ((ts.entries.filter fun e => e.tile == t).map (Fit.entryCost rule (s.candidatesOf p)))) ∧
    (∀ (ts : TileSet) (s : PaletteSet α) (assigned : List Nat),
      Residual.allBy chunk.toNat ts s assigned =
        ts.entries.map fun e => Residual.ofEntry s (assigned.getD e.tile 0) e) ∧
    ∀ (rule : Option (MixRule α)) (s : PaletteSet α) (spots : List (Nat × Compose.Spot)), (∀ q ∈ spots, q.1 < s.size) →
      (∀ numbers, Works workers chunk (Compose.spanIndices rule s) spots numbers ↔
        numbers = spots.map fun q => Compose.pixelIndex rule s q.1 q.2) ∧
      Compose.pixelIndicesBy chunk.toNat rule s spots = spots.map fun q => Compose.pixelIndex rule s q.1 q.2 := by
  refine ⟨?_, ?_, ?_, ?_⟩
  · intro height
    exact ⟨fun _ => mem_split height chunk, flatMap_rows_split height chunk, split_eq_nil_iff height chunk⟩
  · intro rule ts s
    refine ⟨?_, Fit.errorsBy_eq_sum chunk.toNat rule ts s⟩
    intro costs
    exact works_iff workers chunk _ _ fun span _ => Fit.spanCosts_eq_map rule s span
  · intro ts s assigned
    exact chunked_eq_map _ _ _ _ fun _ _ => rfl
  · intro rule s spots hspots
    refine ⟨?_, Compose.pixelIndicesBy_eq_map chunk.toNat rule hspots⟩
    intro numbers
    exact works_iff workers chunk _ _ fun span hspan =>
      Compose.spanIndices_eq_map rule s span fun q hq => hspots q (hspan q hq)

end

/-- Two palettes of two colours each. -/
def Compose.pairSet : PaletteSet Rat where
  zero := .unique
  slots := 2
  palettes := [#v[⟨0, 0, 0⟩, ⟨90, 0, 0⟩], #v[⟨0, 0, 0⟩, ⟨0, 0, 90⟩]]

/-- Four pixels with palettes in turn, in two spans with three workers: both ranks of a mix are met. -/
theorem Span.rows_alone_in_turn :
    let spots : List (Nat × Compose.Spot) :=
      [(1, ⟨⟨0, 0, 45⟩, false, 0⟩), (0, ⟨⟨45, 0, 0⟩, false, 0⟩), (1, ⟨⟨0, 0, 45⟩, false, 1⟩), (0, ⟨⟨45, 0, 0⟩, false, 1⟩)]
    (∀ q ∈ spots, q.1 < Compose.pairSet.size) ∧
      Compose.pixelIndicesBy 2 (some ⟨2, 0⟩) Compose.pairSet spots = [1, 1, 0, 0] ∧
      Works 3 2 (Compose.spanIndices (some ⟨2, 0⟩) Compose.pairSet) spots [1, 1, 0, 0] := by
  intro spots
  have hspots : ∀ q ∈ spots, q.1 < Compose.pairSet.size := by decide
  obtain ⟨hworks, hnumbers⟩ := (rows_alone 3 2).2.2.2 (some ⟨2, 0⟩) Compose.pairSet spots hspots
  have heach : spots.map (fun q => Compose.pixelIndex (some ⟨2, 0⟩) Compose.pairSet q.1 q.2) = [1, 1, 0, 0] := by cbv
  exact ⟨hspots, hnumbers.trans heach, (hworks _).2 heach.symm⟩

end Tessera
