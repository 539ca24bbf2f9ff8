import Mathlib
import Tessera.Proofs.Acts
import Tessera.Proofs.Floats
import Tessera.Proofs.Growth
/-!
# The best so far

A learner measures palettes at checkpoints and keeps the best ones. Whatever is done in between, its history has the least
error so far after each checkpoint, and its best set is the one that was measured first with the least error of all
(`Learner.Tracks`). A checkpoint keeps this (`Tracks.checkpoint`) and no other act touches what it speaks of
(`perform_best`), so it holds after every act of any sequence of calls (`Learner.tracks_calls`).
-/

namespace Tessera

namespace Learner

variable {α γ : Type} [Scalar α]

/-! ## The first of the least -/

/-- An element of a list is the first with the least error. -/
structure FirstLeast (err : PaletteSet α → α) (ms : List (PaletteSet α)) (s : PaletteSet α) : Prop where
  least : ∀ t ∈ ms, ¬ err t < err s
  first : ∃ k : Nat, ms[k]? = some s ∧ ∀ t ∈ ms.take k, err s < err t

theorem FirstLeast.mem {err : PaletteSet α → α} {ms : List (PaletteSet α)} {s : PaletteSet α} (h : FirstLeast err ms s) :
    s ∈ ms := by
  obtain ⟨k, hk, -⟩ := h.first
  exact List.mem_of_getElem? hk

section Order

variable [Scalar.Valued α] {err : PaletteSet α → α} {ms : List (PaletteSet α)} {b s : PaletteSet α}

theorem firstLeast_singleton (hs : Scalar.isFinite (err s) = true) : FirstLeast err [s] s := by
  refine ⟨fun t ht => ?_, 0, rfl, fun t ht => by cases ht⟩
  rw [List.mem_singleton.1 ht, Scalar.Valued.lt_iff hs hs]
  exact lt_irrefl _

/-- A better one that is added is the first with the least error. -/
theorem FirstLeast.better (h : FirstLeast err ms b) (hfinite : ∀ t ∈ ms ++ [s], Scalar.isFinite (err t) = true)
    (hlt : err s < err b) : FirstLeast err (ms ++ [s]) s := by
  have hs := hfinite s (by simp)
  have hb := hfinite b (List.mem_append_left _ h.mem)
  have hbelow : ∀ t ∈ ms, err s < err t := by
    intro t ht
    have htf := hfinite t (List.mem_append_left _ ht)
    have hle := h.least t ht
    rw [Scalar.Valued.lt_iff htf hb] at hle
    rw [Scalar.Valued.lt_iff hs hb] at hlt
    rw [Scalar.Valued.lt_iff hs htf]
    linarith
  refine ⟨fun t ht => ?_, ms.length, by simp, fun t ht => hbelow t (by simpa using ht)⟩
  rcases List.mem_append.1 ht with ht | ht
  · have htf := hfinite t (List.mem_append_left _ ht)
    have hst := hbelow t ht
    rw [Scalar.Valued.lt_iff hs htf] at hst
    rw [Scalar.Valued.lt_iff htf hs]
    exact hst.le.not_gt
  · rw [List.mem_singleton.1 ht, Scalar.Valued.lt_iff hs hs]
    exact lt_irrefl _

end Order

/-- One that is added and is not better changes nothing. -/
theorem FirstLeast.worse {err : PaletteSet α → α} {ms : List (PaletteSet α)} {b s : PaletteSet α} (h : FirstLeast err ms b)
    (hle : ¬ err s < err b) : FirstLeast err (ms ++ [s]) b := by
  obtain ⟨k, hk, hbefore⟩ := h.first
  have hlt : k < ms.length := (List.getElem?_eq_some_iff.1 hk).1
  refine ⟨fun t ht => ?_, k, ?_, fun t ht => hbefore t ?_⟩
  · rcases List.mem_append.1 ht with ht | ht
    · exact h.least t ht
    · rw [List.mem_singleton.1 ht]
      exact hle
  · rw [List.getElem?_append_left hlt, hk]
  · rwa [List.take_append_of_le_length hlt.le] at ht

/-! ## Tracking -/

/-- What a learner remembers of the palettes that were measured: after each of them the least error so far, and the first
palettes with the least error of all. -/
structure Tracks (pb : Problem α) (ms : List (PaletteSet α)) (l : Learner α γ) : Prop where
  length_history : l.history.length = ms.length
  history_least : ∀ (i : Nat) (e : α), l.history[i]? = some e →
    e ∈ (ms.take (i + 1)).map (error pb) ∧ ∀ s ∈ ms.take (i + 1), ¬ error pb s < e
  history_descends : l.history.Pairwise fun e e' => ¬ e < e'
  best_eq_none : l.best = none ↔ ms = []
  best_first : ∀ b, l.best = some b → FirstLeast (error pb) ms b.set ∧ b.error = error pb b.set ∧
    l.bestError = error pb b.set ∧ ∀ s, l.bestOr s = b.set

/-- Entries that are each the least so far do not increase. -/
theorem descends_of_least {err : PaletteSet α → α} {ms : List (PaletteSet α)} {history : List α}
    (h : ∀ (i : Nat) (e : α), history[i]? = some e →
      e ∈ (ms.take (i + 1)).map err ∧ ∀ s ∈ ms.take (i + 1), ¬ err s < e) :
    history.Pairwise fun e e' => ¬ e < e' := by
  rw [List.pairwise_iff_getElem]
  intro i j hi hj hij
  obtain ⟨s, hs, heq⟩ := List.mem_map.1 (h i _ (List.getElem?_eq_getElem hi)).1
  rw [← heq]
  exact (h j _ (List.getElem?_eq_getElem hj)).2 s ((List.take_prefix_take_left (by omega)).subset hs)

theorem tracks_start (pb : Problem α) (shuffler : Shuffler) (source : γ) :
    Tracks pb [] (start shuffler source : Learner α γ) := by
  refine ⟨rfl, fun i e h => ?_, .nil, by simp [start], fun b h => by cases h⟩
  simp [start] at h

/-- What is remembered depends on the history and the best only. -/
theorem Tracks.congr {pb : Problem α} {ms : List (PaletteSet α)} {l l' : Learner α γ} (h : Tracks pb ms l)
    (hhistory : l'.history = l.history) (hbest : l'.best = l.best) : Tracks pb ms l' := by
  refine ⟨by rw [hhistory, h.length_history], by rw [hhistory]; exact h.history_least,
    by rw [hhistory]; exact h.history_descends, by rw [hbest]; exact h.best_eq_none, fun b hb => ?_⟩
  have hfirst := h.best_first b (hbest ▸ hb)
  simp only [bestError, bestOr, hbest] at hfirst ⊢
  exact hfirst

/-- A history that goes on with the error of the first palettes with the least one. -/
theorem Tracks.extend {pb : Problem α} {ms : List (PaletteSet α)} {l l' : Learner α γ} {s : PaletteSet α} {b : Measured α}
    (h : Tracks pb ms l) (hfirst : FirstLeast (error pb) (ms ++ [s]) b.set) (herror : b.error = error pb b.set)
    (hhistory : l'.history = l.history ++ [l'.bestError]) (hbest : l'.best = some b) : Tracks pb (ms ++ [s]) l' := by
  have hbestError : l'.bestError = b.error := by simp [bestError, hbest]
  rw [hbestError] at hhistory
  have hlength : l'.history.length = (ms ++ [s]).length := by
    rw [hhistory, List.length_append, List.length_append, h.length_history]
    rfl
  have hleast : ∀ (i : Nat) (e : α), l'.history[i]? = some e →
      e ∈ ((ms ++ [s]).take (i + 1)).map (error pb) ∧ ∀ t ∈ (ms ++ [s]).take (i + 1), ¬ error pb t < e := by
    intro i e he
    rw [hhistory] at he
    by_cases hi : i < l.history.length
    · rw [List.getElem?_append_left hi] at he
      rw [List.take_append_of_le_length (by rw [← h.length_history]; omega)]
      exact h.history_least i e he
    · have hlast : i = l.history.length := by
        have := (List.getElem?_eq_some_iff.1 he).1
        rw [List.length_append, List.length_singleton] at this
        omega
      subst hlast
      obtain rfl : b.error = e := by simpa using he
      rw [List.take_of_length_le (by rw [List.length_append, h.length_history]; rfl), herror]
      exact ⟨List.mem_map_of_mem hfirst.mem, hfirst.least⟩
  refine ⟨hlength, hleast, descends_of_least hleast, by simp [hbest], fun b' hb' => ?_⟩
  obtain rfl : b = b' := Option.some.inj (hbest.symm.trans hb')
  exact ⟨hfirst, herror, hbestError.trans herror, fun t => by simp [bestOr, hbest]⟩

variable [Scalar.Valued α] {pb : Problem α} {ms : List (PaletteSet α)} {l : Learner α γ} {s : PaletteSet α}

/-- **A checkpoint keeps track.** -/
theorem Tracks.checkpoint (h : Tracks pb ms l) (hfinite : ∀ t ∈ ms ++ [s], Scalar.isFinite (error pb t) = true) :
    Tracks pb (ms ++ [s]) (l.checkpoint pb s).2 := by
  have hnew : (l.checkpoint pb s).2.best = if l.beats (error pb s) then some ⟨s, error pb s⟩ else l.best := rfl
  cases hbest : l.best with
  | none =>
    rw [beats, hbest, if_pos rfl] at hnew
    refine h.extend ?_ rfl rfl hnew
    rw [h.best_eq_none.1 hbest] at hfinite ⊢
    exact firstLeast_singleton (hfinite s (by simp))
  | some b =>
    obtain ⟨hfirst, herror, -, -⟩ := h.best_first b hbest
    simp only [beats, hbest, decide_eq_true_eq] at hnew
    by_cases hlt : error pb s < b.error
    · rw [if_pos hlt] at hnew
      exact h.extend (hfirst.better hfinite (herror ▸ hlt)) rfl rfl hnew
    · rw [if_neg hlt] at hnew
      exact h.extend (hfirst.worse (herror ▸ hlt)) herror rfl hnew

/-! ## Acts -/

variable [OrderSource γ]

omit [Scalar.Valued α] in
/-- Only a checkpoint touches the history and the best. -/
theorem Work.perform_best (pb : Problem α) (w : Work α γ) {a : Act α} (ha : a ≠ .measure) :
    (w.perform pb a).learner.history = w.learner.history ∧ (w.perform pb a).learner.best = w.learner.best := by
  cases a with
  | measure => exact absurd rfl ha
  | grow rates =>
    simp only [perform, growOne, judge]
    split <;> exact ⟨rfl, rfl⟩
  | draw rates => exact ⟨rfl, rfl⟩
  | change f => exact ⟨rfl, rfl⟩
  | restore => exact ⟨rfl, rfl⟩
  | turn phase => exact ⟨rfl, rfl⟩

/-- **Acts keep track.** -/
theorem Tracks.performAll (w : Work α γ) (h : Tracks pb ms w.learner) (acts : List (Act α))
    (hfinite : ∀ t ∈ ms ++ w.measured pb acts, Scalar.isFinite (error pb t) = true) :
    Tracks pb (ms ++ w.measured pb acts) (w.performAll pb acts).learner := by
  induction acts generalizing w ms with
  | nil => simpa [Work.measured] using h
  | cons a acts ih =>
    by_cases ha : a = .measure
    · subst ha
      have hsplit : ms ++ w.measured pb (.measure :: acts) =
          (ms ++ [w.set]) ++ (w.perform pb .measure).measured pb acts := by simp [Work.measured]
      rw [hsplit] at hfinite ⊢
      exact ih (w.perform pb .measure) (h.checkpoint fun t ht => hfinite t (List.mem_append_left _ ht)) hfinite
    · have hsame : w.measured pb (a :: acts) = (w.perform pb a).measured pb acts := by
        cases a <;> first | rfl | exact absurd rfl ha
      rw [hsame] at hfinite ⊢
      obtain ⟨hhistory, hbest⟩ := Work.perform_best pb w ha
      exact ih (w.perform pb a) (h.congr hhistory hbest) hfinite

/-! ## Calls -/

/-- What is called on a learner. A change stands for any replacer, and for going on with other palettes. -/
inductive Call (α : Type) where
  | change (f : Reseed.Changed α → Reseed.Changed α)
  | run (rates : List α)
  | checkpoint
  | replacePhase (rule : ReseedRule α) (schedule : Schedule α) (blocks count : Nat)
  | finalPhase (schedule : Schedule α) (offset : Int) (total block : Nat)

/-- The palettes, the learner and the counts after a call. -/
def Work.call (pb : Problem α) (w : Work α γ) : Call α → Work α γ
  | .change f => ⟨(f ⟨w.set, w.counts⟩).set, w.learner, (f ⟨w.set, w.counts⟩).counts⟩
  | .run rates =>
    let r := w.learner.run pb w.set rates
    ⟨r.1, r.2, w.counts⟩
  | .checkpoint => { w with learner := (w.learner.checkpoint pb w.set).2 }
  | .replacePhase rule schedule blocks count =>
    Id.run (Learner.replacePhase (fun _ => pure ()) pb rule (schedule.blockRates blocks count) w)
  | .finalPhase schedule offset total block =>
    let r := Id.run (Learner.finalPhase (fun _ => pure ()) pb (schedule.stretches offset total block) w.set w.learner)
    ⟨r.1, r.2, w.counts⟩

/-- The acts of a call. -/
def Call.acts (ts : TileSet) : Call α → List (Act α)
  | .change f => [.change f]
  | .run rates => [.draw rates]
  | .checkpoint => [.measure]
  | .replacePhase rule schedule blocks count =>
    .turn .annealing :: (schedule.blockRates blocks count).flatMap (replaceActs (Reseed.replace rule ts))
  | .finalPhase schedule offset total block =>
    .turn .annealing :: (schedule.stretches offset total block).flatMap (fun x => finalActs x.rates) ++ [.turn .converged]

omit [Scalar.Valued α] in
/-- A call performs its acts. -/
theorem Work.call_eq (pb : Problem α) (w : Work α γ) (c : Call α) : w.call pb c = w.performAll pb (c.acts pb.tiles) := by
  cases c with
  | change f => rfl
  | run rates => rfl
  | checkpoint => rfl
  | replacePhase rule schedule blocks count =>
    rw [call, replacePhase_eq]
    simp [Call.acts]
  | finalPhase schedule offset total block =>
    have hcounts : (w.performAll pb (Call.acts pb.tiles (.finalPhase schedule offset total block))).counts = w.counts :=
      performAll_counts _ _ _ fun f hf => by simp [Call.acts, finalActs] at hf
    rw [call, finalPhase_eq]
    simp only [Call.acts] at hcounts ⊢
    simp [← hcounts]

omit [Scalar.Valued α] in
theorem Work.foldl_call (pb : Problem α) (w : Work α γ) (calls : List (Call α)) :
    calls.foldl (Work.call pb) w = w.performAll pb (calls.flatMap (Call.acts pb.tiles)) := by
  induction calls generalizing w with
  | nil => rfl
  | cons c calls ih => rw [List.foldl_cons, ih, call_eq, List.flatMap_cons, performAll_append]

/-- **The best so far.** Call anything on a new learner, in any order and with any palettes. What the calls come to is what
their acts come to, one after the other, and after any number of these the learner has kept track of all the palettes that
were measured until then, by any measure with finite errors: the history and the best set are those of `Tracks`. -/
theorem tracks_calls (pb : Problem α) (shuffler : Shuffler) (source : γ) (s : PaletteSet α) (counts : Reseeds)
    (calls : List (Call α))
    (hfinite : ∀ t ∈ Work.measured pb ⟨s, start shuffler source, counts⟩ (calls.flatMap (Call.acts pb.tiles)),
      Scalar.isFinite (error pb t) = true) :
    calls.foldl (Work.call pb) ⟨s, start shuffler source, counts⟩ =
      Work.performAll pb ⟨s, start shuffler source, counts⟩ (calls.flatMap (Call.acts pb.tiles)) ∧
    ∀ n, Tracks pb
      (Work.measured pb ⟨s, start shuffler source, counts⟩ ((calls.flatMap (Call.acts pb.tiles)).take n))
      (Work.performAll pb ⟨s, start shuffler source, counts⟩ ((calls.flatMap (Call.acts pb.tiles)).take n)).learner := by
  refine ⟨Work.foldl_call pb _ calls, fun n => ?_⟩
  have htracks := (tracks_start pb shuffler source).performAll ⟨s, start shuffler source, counts⟩
    ((calls.flatMap (Call.acts pb.tiles)).take n)
  rw [List.nil_append] at htracks
  refine htracks fun t ht => hfinite t ?_
  rw [← List.take_append_drop n (calls.flatMap (Call.acts pb.tiles)), Work.measured_append]
  exact List.mem_append_left _ ht

/-- One palette of one colour. -/
def singleSet : PaletteSet Float := ⟨.unique, 1, [#v[⟨10, 20, 30⟩]]⟩

/-- A learner of floating-point palettes, with the four samples of the tiles. -/
def singleLearner : Learner Float Generator :=
  .start (Shuffler.start smallTiles.samples.size (default : Generator)).1
    (Shuffler.start smallTiles.samples.size (default : Generator)).2

/-- Calls that measure six times: before and after a run, after one that makes things worse, and in both phases. -/
def someCalls : List (Call Float) :=
  [.checkpoint, .run [0.5, 0.25, 0.125], .checkpoint, .run (Schedule.rates ⟨1.0, 0.5, 4⟩ 0 4), .checkpoint,
    .replacePhase ⟨0.5, 0.5⟩ ⟨0.3, 0.05, 6⟩ 1 2, .finalPhase ⟨0.3, 0.05, 6⟩ 2 4 3]

/-- After those calls the history has six entries that do not increase, and the best palettes are the first with the least
error of the six that were measured. -/
theorem tracks_calls_small :
    ∃ (ms : List (PaletteSet Float)) (l : Learner Float Generator) (b : Measured Float), ms.length = 6 ∧
      l = (someCalls.foldl (Work.call ⟨smallTiles, none⟩) ⟨singleSet, singleLearner, ⟨0, 0⟩⟩).learner ∧
      l.history.length = 6 ∧ (l.history.Pairwise fun e e' => ¬ e < e') ∧ l.best = some b ∧
      FirstLeast (error ⟨smallTiles, none⟩) ms b.set ∧ l.bestError = error ⟨smallTiles, none⟩ b.set ∧
      l.bestOr singleSet = b.set := by
  have hfinite : ∀ t ∈ Work.measured ⟨smallTiles, none⟩ ⟨singleSet, singleLearner, ⟨0, 0⟩⟩
      (someCalls.flatMap (Call.acts smallTiles)), Scalar.isFinite (error ⟨smallTiles, none⟩ t) = true := by
    rw [← List.all_eq_true]
    decide +kernel
  have hsix : (Work.measured ⟨smallTiles, none⟩ ⟨singleSet, singleLearner, ⟨0, 0⟩⟩
      (someCalls.flatMap (Call.acts smallTiles))).length = 6 := by decide +kernel
  obtain ⟨hcalls, htracks⟩ := tracks_calls ⟨smallTiles, none⟩ _ _ singleSet ⟨0, 0⟩ someCalls hfinite
  have htracks := htracks (someCalls.flatMap (Call.acts smallTiles)).length
  rw [List.take_length, ← hcalls] at htracks
  have hsome : (someCalls.foldl (Work.call ⟨smallTiles, none⟩) ⟨singleSet, singleLearner, ⟨0, 0⟩⟩).learner.best ≠ none := by
    intro hnone
    have hnil := congrArg List.length (htracks.best_eq_none.1 hnone)
    cases hsix.symm.trans hnil
  obtain ⟨b, hb⟩ := Option.ne_none_iff_exists'.1 hsome
  obtain ⟨hfirst, -, herror, hbestOr⟩ := htracks.best_first b hb
  exact ⟨_, _, b, hsix, rfl, htracks.length_history.trans hsix, htracks.history_descends, hb, hfirst, herror,
    hbestOr singleSet⟩

end Learner

end Tessera
