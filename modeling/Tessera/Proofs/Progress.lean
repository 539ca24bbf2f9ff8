import Mathlib
import Tessera.Proofs.BitDepth
import Tessera.Proofs.Budget
import Tessera.Proofs.Extraction
/-!
# The timetable of a run

A run reports at every step of every stage, each time with a percentage that it works out from its own counter. Which
reports these are is laid down by the settings: `requests_script` reads them off the script of a run, whatever the scalars.
In exact arithmetic the percentages climb (`climbs_timetable`), so a journal takes every one as it is asked for
(`Journal.trace_writeAll`), and the events of a run that nobody stops are its timetable.
-/

namespace Tessera

variable {α γ : Type} [Scalar α] [OrderSource γ]

/-! ## Requests -/

/-- What a line asks a journal to show. -/
def Line.request? : Line α → Option (Stage × α)
  | .note _ => none
  | .report percent stage _ => some (stage, percent)

/-- What lines ask a journal to show. -/
def requests (lines : List (Line α)) : List (Stage × α) := lines.filterMap Line.request?

omit [Scalar α] in
@[simp] theorem requests_append (xs ys : List (Line α)) : requests (xs ++ ys) = requests xs ++ requests ys :=
  List.filterMap_append

omit [Scalar α] in
@[simp] theorem requests_nil : requests ([] : List (Line α)) = [] := rfl

omit [Scalar α] in
@[simp] theorem requests_cons_note (n : Note α) (lines : List (Line α)) : requests (.note n :: lines) = requests lines :=
  rfl

omit [Scalar α] in
@[simp] theorem requests_cons_report (percent : α) (stage : Stage) (s : PaletteSet α) (lines : List (Line α)) :
    requests (.report percent stage s :: lines) = (stage, percent) :: requests lines := rfl

/-- A list of numbered things, one number further on. -/
theorem map_range_succ {β : Type} (f : Nat → β) (i n : Nat) :
    ((List.range (n + 1)).map fun k => f (i + k)) = f i :: (List.range n).map fun k => f (i + 1 + k) := by
  rw [List.range_succ_eq_map, List.map_cons, List.map_map]
  simp [Function.comp_def, Nat.add_assoc, Nat.add_comm 1]

namespace Learner

theorem growOne_slots (pb : Problem α) (l : Learner α γ) (s : PaletteSet α) (rates : List α) :
    (l.growOne pb s rates).set.slots = s.slots + 1 := by
  simp only [growOne, judge]
  split
  · rfl
  · obtain ⟨-, hslots, -⟩ := run_sameShape pb l (seeded pb.tiles s) rates
    rw [hslots]
    rfl

end Learner

namespace Plan

open Learner

variable (p : Plan α)

/-- The percentage of growth with some slots. -/
def growPercent (slots : Nat) : α :=
  between 0 growEnd (slots - p.settings.colorZero.initialSlots)
    (max 1 (p.settings.colorsPerPalette - p.settings.colorZero.initialSlots))

theorem requests_growMoments (n : Nat) (s : PaletteSet α) (l : Learner α γ) :
    requests ((growMoments p.problem p.growRates n s l).flatMap p.lines) =
      (List.range n).map fun k => (Stage.grow, p.growPercent (s.slots + 1 + k)) := by
  induction n generalizing s l with
  | zero => rfl
  | succ n ih =>
    have hrejected : requests ((l.growOne p.problem s p.growRates).moment.toList.flatMap p.lines) = [] := by
      simp only [growOne, judge]
      split <;> rfl
    have hslots := growOne_slots p.problem l s p.growRates
    rw [growMoments, List.flatMap_append, List.flatMap_cons, requests_append, requests_append, hrejected, ih, hslots,
      map_range_succ fun k => (Stage.grow, p.growPercent k), ← hslots]
    rfl

theorem requests_replaceMoments (rule : ReseedRule α) (count index : Nat) (blocks : List (List α)) (w : Work α γ) :
    requests ((replaceMoments p.problem rule count index blocks w).flatMap p.lines) =
      (List.range blocks.length).map fun k => (Stage.replace, between growEnd replaceEnd (index + k + 1) count) := by
  induction blocks generalizing index w with
  | nil => rfl
  | cons rates blocks ih =>
    rw [replaceMoments, List.flatMap_cons, requests_append, ih, List.length_cons,
      map_range_succ fun k => (Stage.replace, (between growEnd replaceEnd (k + 1) count : α))]
    rfl

theorem requests_finalMoments (index : Nat) (blocks : List (Stretch α)) (s : PaletteSet α) (l : Learner α γ) :
    requests ((finalMoments p.problem index blocks s l).flatMap p.lines) =
      (List.range blocks.length).map fun k => (Stage.refine,
        between replaceEnd finalEnd (index + k + 1) (countBlocks α p.finalTotal p.block).toNat) := by
  induction blocks generalizing index s l with
  | nil => rfl
  | cons x blocks ih =>
    rw [finalMoments, List.flatMap_cons, requests_append, ih, List.length_cons, map_range_succ fun k =>
      (Stage.refine, (between replaceEnd finalEnd (k + 1) (countBlocks α p.finalTotal p.block).toNat : α))]
    rfl

theorem requests_correctMoments (n index : Nat) (s : PaletteSet α) :
    requests ((Depth.correctMoments p.settings.bitsPerChannel p.tiles n index s).flatMap p.lines) =
      (List.range n).map fun k => (Stage.bitDepth, between finalEnd allDone (index + k + 1) (Depth.defaultPasses + 1)) := by
  induction n generalizing index s with
  | zero => rfl
  | succ n ih =>
    rw [Depth.correctMoments, List.flatMap_cons, requests_append, ih, map_range_succ fun k =>
      (Stage.bitDepth, (between finalEnd allDone (k + 1) (Depth.defaultPasses + 1) : α))]
    rfl

/-- The reports that settings lay down for a run, each with the percentage that it asks for. -/
def outline : List (Stage × α) :=
  (Stage.start, Scalar.ofNat 0) ::
    ((List.range (p.settings.colorsPerPalette - p.settings.colorZero.initialSlots)).map fun k =>
      (Stage.grow, between 0 growEnd (k + 1)
        (max 1 (p.settings.colorsPerPalette - p.settings.colorZero.initialSlots)))) ++
    [(Stage.grow, Scalar.ofNat growEnd)] ++
    ((List.range p.settings.replaceIterations).map fun k =>
      (Stage.replace, between growEnd replaceEnd (k + 1) p.settings.replaceIterations)) ++
    ((List.range finalBlocks).map fun k =>
      (Stage.refine, between replaceEnd finalEnd (k + 1) (countBlocks α p.finalTotal p.block).toNat)) ++
    (if p.settings.useDither then [(Stage.bitDepth, Scalar.ofNat ditherEnd)]
      else (List.range Depth.defaultPasses).map fun k =>
        (Stage.bitDepth, between finalEnd allDone (k + 1) (Depth.defaultPasses + 1)))

theorem length_finalRates : p.finalRates.length = finalBlocks := by
  have hblock := p.block_pos
  rw [finalRates, Schedule.length_stretches _ _ _ hblock, finalTotal]
  rw [Nat.mul_comm, Nat.mul_add_div hblock, Nat.div_eq_of_lt (by omega), Nat.add_zero]

/-- **What a run asks to be shown** is laid down by its settings. -/
theorem requests_script (l : Learner α γ) : requests (p.script l) = p.outline := by
  have hgrow : requests (p.growLines l) =
      ((List.range (p.settings.colorsPerPalette - p.settings.colorZero.initialSlots)).map fun k =>
        (Stage.grow, between 0 growEnd (k + 1)
          (max 1 (p.settings.colorsPerPalette - p.settings.colorZero.initialSlots)))) ++
      [(.grow, Scalar.ofNat growEnd)] := by
    have hpercent : ∀ k, p.growPercent (p.settings.colorZero.initialSlots + 1 + k) = between 0 growEnd (k + 1)
        (max 1 (p.settings.colorsPerPalette - p.settings.colorZero.initialSlots)) := by
      intro k
      rw [growPercent, show p.settings.colorZero.initialSlots + 1 + k - p.settings.colorZero.initialSlots = k + 1 by omega]
    rw [growLines, requests_append, requests_growMoments, start_slots]
    simp only [hpercent]
    rfl
  have hreplace : requests (p.replaceLines (p.afterGrowth l)) =
      (List.range p.settings.replaceIterations).map fun k =>
        (Stage.replace, between growEnd replaceEnd (k + 1) p.settings.replaceIterations) := by
    have hlength : p.replaceRates.length = p.settings.replaceIterations := by simp [replaceRates, Schedule.blockRates]
    rw [replaceLines, requests_append, requests_replaceMoments, hlength]
    simp
  have hrefine : requests (p.refineLines (p.afterReplacing l)) = (List.range finalBlocks).map fun k =>
      (Stage.refine, between replaceEnd finalEnd (k + 1) (countBlocks α p.finalTotal p.block).toNat) := by
    rw [refineLines, requests_finalMoments, length_finalRates]
    simp
  have hdepth : requests (p.depthLines (p.afterRefining l).set) =
      if p.settings.useDither then [(.bitDepth, Scalar.ofNat ditherEnd)]
      else (List.range Depth.defaultPasses).map fun k =>
        (Stage.bitDepth, between finalEnd allDone (k + 1) (Depth.defaultPasses + 1)) := by
    rw [depthLines]
    split
    · rfl
    · rw [requests_correctMoments]
      simp
  simp [script, outline, hgrow, hreplace, hrefine, hdepth]

end Plan

/-! ## Climbing percentages -/

/-- Numbers that do not fall, between two bounds. -/
structure Climbs (lo hi : Rat) (xs : List Rat) : Prop where
  ascending : xs.Pairwise (· ≤ ·)
  bounds : ∀ x ∈ xs, lo ≤ x ∧ x ≤ hi

theorem Climbs.append {lo mid hi : Rat} {xs ys : List Rat} (hxs : Climbs lo mid xs) (hys : Climbs mid hi ys)
    (hlo : lo ≤ mid) (hhi : mid ≤ hi) : Climbs lo hi (xs ++ ys) := by
  constructor
  · rw [List.pairwise_append]
    refine ⟨hxs.ascending, hys.ascending, ?_⟩
    intro x hx y hy
    exact (hxs.bounds x hx).2.trans (hys.bounds y hy).1
  · intro x hx
    rcases List.mem_append.1 hx with hx | hx
    · exact ⟨(hxs.bounds x hx).1, (hxs.bounds x hx).2.trans hhi⟩
    · exact ⟨hlo.trans (hys.bounds x hx).1, (hys.bounds x hx).2⟩

theorem climbs_singleton {lo hi x : Rat} (hlo : lo ≤ x) (hhi : x ≤ hi) : Climbs lo hi [x] :=
  ⟨List.pairwise_singleton _ _, by simpa using ⟨hlo, hhi⟩⟩

/-- Equal steps climb from one bound to the other. -/
theorem climbs_steps {lo way : Rat} (hway : 0 ≤ way) {n den : Nat} (hn : n ≤ den) :
    Climbs lo (lo + way) ((List.range n).map fun k => lo + way * (k + 1 : Nat) / den) := by
  constructor
  · rw [List.pairwise_map]
    refine List.pairwise_lt_range.imp ?_
    intro i j hij
    have hle : ((i + 1 : Nat) : Rat) ≤ (j + 1 : Nat) := by exact_mod_cast Nat.succ_le_succ hij.le
    gcongr
  · intro x hx
    obtain ⟨k, hk, rfl⟩ := List.mem_map.1 hx
    have hden : (0 : Rat) < den := by
      have := List.mem_range.1 hk
      exact_mod_cast (by omega : 0 < den)
    have hle : ((k + 1 : Nat) : Rat) ≤ den := by
      have := List.mem_range.1 hk
      exact_mod_cast (by omega : k + 1 ≤ den)
    constructor
    · have : 0 ≤ way * (k + 1 : Nat) / den := by positivity
      linarith
    · have : way * (k + 1 : Nat) / den ≤ way := by
        rw [div_le_iff₀ hden]
        exact mul_le_mul_of_nonneg_left hle hway
      linarith

theorem Plan.between_rat {lo hi num den : Nat} (h : num ≤ den) (hden : 0 < den) :
    (between lo hi num den : Rat) = lo + ((hi : Rat) - lo) * num / den := by
  have hpos : (0 : Rat) < den := by exact_mod_cast hden
  have hunit : 0 ≤ (num : Rat) / den ∧ (num : Rat) / den ≤ 1 := by
    constructor
    · positivity
    · rw [div_le_one hpos]
      exact_mod_cast h
  rw [between, Schedule.clampUnit_rat]
  simp only [Scalar.ofNat_rat]
  rw [max_eq_right hunit.1, min_eq_left hunit.2, mul_div_assoc]

/-! ## Journals of climbing percentages -/

/-- What a journal shows: the stages with their percentages. -/
def Journal.trace (j : Journal α) : List (Stage × α) := j.events.map fun e => (e.stage, e.percent)

namespace Journal

omit [Scalar α] in
@[simp] theorem trace_note (j : Journal α) (n : Note α) : (j.note n).trace = j.trace := by
  rw [trace, events_note, trace]

theorem stages_write (preview : PaletteSet α → Option (Composition α)) (lines : List (Line α)) (j : Journal α) :
    (j.writeAll preview lines).trace.map Prod.fst = j.trace.map Prod.fst ++ (requests lines).map Prod.fst := by
  induction lines generalizing j with
  | nil => simp [writeAll, requests]
  | cons x lines ih =>
    rw [writeAll_cons, ih]
    cases x with
    | note n => rw [write, trace_note, requests_cons_note]
    | report percent stage s =>
      rw [write, trace, events_report, requests_cons_report]
      simp [trace, report]

/-- A percentage that is neither below an earlier one nor above a hundred is shown as it is. -/
theorem report_rat (j : Journal Rat) {percent : Rat} (hlo : j.percent ≤ percent) (hhi : percent ≤ 100) (stage : Stage)
    (s : PaletteSet Rat) (c : Option (Composition Rat)) :
    (j.report percent stage s c).2.percent = percent ∧
      (j.report percent stage s c).2.trace = j.trace ++ [(stage, percent)] := by
  have hclamp : (if (Scalar.ofNat 100 : Rat) < percent then Scalar.ofNat 100 else percent) = percent :=
    if_neg (not_lt.2 hhi)
  have hmax : (if j.percent < percent then percent else j.percent) = percent := by
    split
    · rfl
    · exact le_antisymm hlo (not_lt.1 ‹_›)
  rw [trace, events_report, List.map_append]
  simp only [report, hclamp, hmax]
  exact ⟨trivial, rfl⟩

/-- **Climbing percentages are shown as they are asked for.** -/
theorem trace_writeAll (preview : PaletteSet Rat → Option (Composition Rat)) (lines : List (Line Rat)) (j : Journal Rat)
    (h : Climbs j.percent 100 ((requests lines).map Prod.snd)) :
    (j.writeAll preview lines).trace = j.trace ++ requests lines ∧
      (j.writeAll preview lines).percent = ((requests lines).map Prod.snd).getLast?.getD j.percent := by
  induction lines generalizing j with
  | nil => simp [writeAll, requests]
  | cons x lines ih =>
    rw [writeAll_cons]
    cases x with
    | note n =>
      have hrest := ih (j.note n) h
      rw [trace_note] at hrest
      exact hrest
    | report percent stage s =>
      rw [requests_cons_report, List.map_cons] at h ⊢
      obtain ⟨hlo, hhi⟩ := h.bounds percent List.mem_cons_self
      obtain ⟨hfirst, hascending⟩ := List.pairwise_cons.1 h.ascending
      obtain ⟨hpercent, htrace⟩ := j.report_rat hlo hhi stage s (preview s)
      have hclimbs : Climbs (j.report percent stage s (preview s)).2.percent 100 ((requests lines).map Prod.snd) := by
        rw [hpercent]
        refine ⟨hascending, ?_⟩
        intro y hy
        exact ⟨hfirst y hy, (h.bounds y (List.mem_cons_of_mem _ hy)).2⟩
      obtain ⟨hrest, hlast⟩ := ih (j.report percent stage s (preview s)).2 hclimbs
      refine ⟨?_, ?_⟩
      · rw [write, hrest, htrace, List.append_assoc]
        rfl
      · rw [write, hlast, hpercent, List.getLast?_cons]
        rfl

end Journal

/-! ## The timetable -/

/-- Events of one name at equal steps on the way from a percentage on. -/
def evenly (name : String) (lo way : Rat) (n den : Nat) : List (String × Rat) :=
  (List.range n).map fun k => (name, lo + way * (k + 1 : Nat) / den)

/-- The events of a run that nobody stops, by its settings: each with the name of its stage and its percentage. -/
def Settings.timetable {β : Type} (s : Settings β) : List (String × Rat) :=
  [("initialize", (0 : Rat))] ++
    evenly "grow" 0 25 (s.colorsPerPalette - s.colorZero.initialSlots)
      (max 1 (s.colorsPerPalette - s.colorZero.initialSlots)) ++
    [("grow", (25 : Rat))] ++
    evenly "replace" 25 40 s.replaceIterations s.replaceIterations ++
    evenly "final" 65 25 10 10 ++
    (if s.useDither then [("bit-depth", (94 : Rat))] else evenly "bit-depth" 90 10 3 4) ++
    [("done", (100 : Rat))]

theorem climbs_evenly (name : String) {lo way hi : Rat} (hway : 0 ≤ way) (hhi : lo + way = hi) {n den : Nat}
    (hn : n ≤ den) : Climbs lo hi ((evenly name lo way n den).map Prod.snd) := by
  rw [evenly, List.map_map, ← hhi]
  exact climbs_steps hway hn

theorem length_evenly (name : String) (lo way : Rat) (n den : Nat) : (evenly name lo way n den).length = n := by
  simp [evenly]

/-- **The percentages of a timetable climb** from nothing to a hundred. -/
theorem climbs_timetable {β : Type} (s : Settings β) : Climbs 0 100 (s.timetable.map Prod.snd) := by
  have hgrow := climbs_evenly "grow" (show (0 : Rat) ≤ 25 by norm_num) (zero_add 25)
    (Nat.le_max_right 1 (s.colorsPerPalette - s.colorZero.initialSlots))
  have hreplace := climbs_evenly "replace" (show (0 : Rat) ≤ 40 by norm_num) (show (25 : Rat) + 40 = 65 by norm_num)
    (Nat.le_refl s.replaceIterations)
  have hrefine := climbs_evenly "final" (show (0 : Rat) ≤ 25 by norm_num) (show (65 : Rat) + 25 = 90 by norm_num)
    (Nat.le_refl 10)
  have hdepth : Climbs 90 100 ((if s.useDither then [("bit-depth", (94 : Rat))]
      else evenly "bit-depth" 90 10 3 4).map Prod.snd) := by
    split
    · exact climbs_singleton (by norm_num) (by norm_num)
    · exact climbs_evenly "bit-depth" (by norm_num) (by norm_num) (by norm_num)
  have hstart : Climbs 0 0 [(0 : Rat)] := climbs_singleton le_rfl le_rfl
  have hgrown : Climbs 25 25 [(25 : Rat)] := climbs_singleton le_rfl le_rfl
  have hdone : Climbs 100 100 [(100 : Rat)] := climbs_singleton le_rfl le_rfl
  simp only [Settings.timetable, List.map_append, List.map_cons, List.map_nil]
  refine Climbs.append ?_ hdone (by norm_num) (by norm_num)
  refine Climbs.append ?_ hdepth (by norm_num) (by norm_num)
  refine Climbs.append ?_ hrefine (by norm_num) (by norm_num)
  refine Climbs.append ?_ hreplace (by norm_num) (by norm_num)
  refine Climbs.append ?_ hgrown (by norm_num) (by norm_num)
  exact Climbs.append hstart hgrow (by norm_num) (by norm_num)

theorem length_timetable {β : Type} (s : Settings β) :
    s.timetable.length = s.colorsPerPalette - s.colorZero.initialSlots + s.replaceIterations +
      (if s.useDither then 14 else 16) := by
  simp only [Settings.timetable, List.length_append, length_evenly, List.length_singleton]
  split <;> simp [length_evenly] <;> omega

namespace Plan

/-- The lines of a run, its end included. -/
def allLines (p : Plan α) (g : γ) : List (Line α) :=
  p.script (p.learner g) ++ [.report (Scalar.ofNat allDone) .done (p.finalSet g)]

/-- What a run asks to be shown. -/
def asked (p : Plan α) (g : γ) : List (Stage × α) := requests (p.allLines g)

theorem asked_eq (p : Plan α) (g : γ) : p.asked g = p.outline ++ [(.done, Scalar.ofNat allDone)] := by
  rw [asked, allLines, requests_append, requests_script]
  rfl

theorem countBlocks_final (p : Plan Rat) : (countBlocks Rat p.finalTotal p.block).toNat = finalBlocks := by
  have hmax : max 1 (p.block : Int) = p.block := by
    have := p.block_pos
    omega
  have hquotient : (Scalar.ofInt (p.finalTotal : Int) / Scalar.ofInt (p.block : Int) : Rat) = finalBlocks := by
    have hblock : (p.block : Rat) ≠ 0 := by exact_mod_cast p.block_pos.ne'
    have hofInt : ∀ n : Nat, (Scalar.ofInt (n : Int) : Rat) = n := fun n => by simp [Scalar.ofInt]
    rw [hofInt, hofInt, finalTotal, Nat.cast_mul, mul_div_cancel_right₀ _ hblock]
  rw [countBlocks, hmax, hquotient]
  rfl

/-- The reports of a stage are even steps. -/
theorem map_between (stage : Stage) {lo hi n den : Nat} {x way : Rat} (hn : n ≤ den) (hlo : (lo : Rat) = x)
    (hway : (hi : Rat) - lo = way) :
    ((List.range n).map fun k => (stage, (between lo hi (k + 1) den : Rat))).map (fun x => (x.1.name, x.2)) =
      evenly stage.name x way n den := by
  rw [List.map_map, evenly]
  refine List.map_congr_left ?_
  intro k hk
  have hlt := List.mem_range.1 hk
  rw [Function.comp_apply, between_rat (by omega) (by omega), hway, hlo]

/-- In exact arithmetic a run asks for its timetable. -/
theorem asked_rat (p : Plan Rat) (g : γ) : (p.asked g).map (fun x => (x.1.name, x.2)) = p.settings.timetable := by
  have hgrow := map_between .grow (show (p.settings.colorsPerPalette - p.settings.colorZero.initialSlots) ≤
    max 1 (p.settings.colorsPerPalette - p.settings.colorZero.initialSlots) from Nat.le_max_right 1 _)
    (show ((0 : Nat) : Rat) = 0 by norm_num) (show ((growEnd : Nat) : Rat) - (0 : Nat) = 25 by norm_num [growEnd])
  have hreplace := map_between .replace (Nat.le_refl p.settings.replaceIterations)
    (show ((growEnd : Nat) : Rat) = 25 by norm_num [growEnd])
    (show ((replaceEnd : Nat) : Rat) - growEnd = 40 by norm_num [growEnd, replaceEnd])
  have hrefine := map_between .refine (Nat.le_refl finalBlocks)
    (show ((replaceEnd : Nat) : Rat) = 65 by norm_num [replaceEnd])
    (show ((finalEnd : Nat) : Rat) - replaceEnd = 25 by norm_num [replaceEnd, finalEnd])
  have hdepth := map_between .bitDepth (Nat.le_succ Depth.defaultPasses)
    (show ((finalEnd : Nat) : Rat) = 90 by norm_num [finalEnd])
    (show ((allDone : Nat) : Rat) - finalEnd = 10 by norm_num [finalEnd, allDone])
  rw [asked_eq, outline, countBlocks_final, Settings.timetable]
  by_cases hdither : p.settings.useDither = true
  · simp only [hdither, if_true, List.map_append, List.map_cons, List.map_nil, hgrow, hreplace, hrefine]
    rfl
  · simp only [if_neg hdither, List.map_append, List.map_cons, List.map_nil, hgrow, hreplace, hrefine, hdepth]
    rfl

/-- Whatever the scalars are, a run asks for the stages of its timetable. -/
theorem stages_asked (p : Plan α) (g : γ) :
    (p.asked g).map (fun x => x.1.name) = p.settings.timetable.map Prod.fst := by
  rw [asked_eq, outline, Settings.timetable]
  by_cases hdither : p.settings.useDither = true
  · simp [hdither, evenly, Function.comp_def, Stage.name, finalBlocks]
  · simp [hdither, evenly, Function.comp_def, Stage.name, finalBlocks, Depth.defaultPasses]

/-- A run that nobody stops writes all its lines. -/
theorem trace_never (p : Plan α) (preview : Bool) (g : γ) (h : 0 < p.tiles.samples.size) :
    (p.run ⟨.never, preview⟩ g).journal.trace =
      ((Journal.empty.note p.sizes).writeAll (p.previewFor ⟨.never, preview⟩) (p.allLines g)).trace := by
  have hempty : ¬ p.tiles.samples.isEmpty = true := by simpa using h.ne'
  rw [run, if_neg hempty, p.runWith_never .never, complete, Journal.trace_note, allLines, Journal.writeAll, List.foldl_append]
  rfl

/-- The stages of a run that nobody stops are those of its timetable. -/
theorem stages_run (p : Plan α) (preview : Bool) (g : γ) (h : 0 < p.tiles.samples.size) :
    (p.run ⟨.never, preview⟩ g).journal.events.map (fun e => e.stage.name) = p.settings.timetable.map Prod.fst := by
  have hstages := congrArg (List.map Stage.name) (Journal.stages_write (p.previewFor ⟨.never, preview⟩) (p.allLines g)
    (Journal.empty.note p.sizes))
  rw [← p.trace_never preview g h, List.map_append, List.map_map, List.map_map, List.map_map, Journal.trace_note] at hstages
  rw [← p.stages_asked g]
  simpa [Journal.trace, Journal.empty, Journal.events, Function.comp_def, asked] using hstages

/-- In exact arithmetic a run that nobody stops shows what it asks for. -/
theorem trace_run (p : Plan Rat) (preview : Bool) (g : γ) (h : 0 < p.tiles.samples.size) :
    (p.run ⟨.never, preview⟩ g).journal.trace = p.asked g := by
  have hclimbs : Climbs (Journal.empty.note p.sizes).percent 100 ((requests (p.allLines g)).map Prod.snd) := by
    have htimetable := climbs_timetable p.settings
    rw [← p.asked_rat g, List.map_map] at htimetable
    exact htimetable
  obtain ⟨htrace, -⟩ := Journal.trace_writeAll (p.previewFor ⟨.never, preview⟩) (p.allLines g) _ hclimbs
  rw [p.trace_never preview g h, htrace]
  rfl

end Plan

/-! ## Quantizing -/

/-- A canvas with a pixel that is not reserved has samples. -/
theorem Canvas.samples_pos {c : Canvas} (h : ∃ y x, c.reserved.get y x = false) : 0 < c.tiles.samples.size := by
  obtain ⟨y, x, hkept⟩ := h
  have hpos : (0 : Rat) < c.sumKept fun _ _ => 1 := by
    rw [sumKept, ← Fintype.sum_prod_type']
    refine Finset.sum_pos' ?_ ⟨(y, x), Finset.mem_univ _, by simp [hkept]⟩
    intro q _
    split <;> norm_num
  rw [← c.totalWeight_eq, c.totalWeight_eq_samples] at hpos
  exact_mod_cast hpos

/-- **Progress.** Run an image that has a pixel to learn from, with any settings, tiling and reserved pixels, any source of
orders and any k-means, and let nobody stop it. In exact arithmetic its events are those of the timetable that the settings lay
down. This is what it asked to be shown, and the percentages never fall, so none is changed by a later one being held up. With
floating-point numbers the same run has the same stages, so the number of its events depends on the settings alone. -/
theorem quantize_progress (s : Settings Float) (im : Image) (t : Tiling im.height im.width)
    (r : Raster Bool im.height im.width) (means : Cluster.Means Rat) (means' : Cluster.Means Float)
    (h : ∃ y x, r.get y x = false) (preview : Bool) (g : γ) :
    ((Plan.make s.exact im t r means).run ⟨.never, preview⟩ g).journal.events.map (fun e => (e.stage.name, e.percent)) =
        s.timetable ∧
      ((Plan.make s.exact im t r means).asked g).map (fun x => (x.1.name, x.2)) = s.timetable ∧
      (s.timetable.map Prod.snd).Pairwise (· ≤ ·) ∧
      ((Plan.make s im t r means').run ⟨.never, preview⟩ g).journal.events.map (fun e => e.stage.name) =
        s.timetable.map Prod.fst ∧
      s.timetable.length = s.colorsPerPalette - s.colorZero.initialSlots + s.replaceIterations +
        (if s.useDither then 14 else 16) := by
  have hexact : 0 < (Plan.make s.exact im t r means).tiles.samples.size := Canvas.samples_pos h
  have hfloat : 0 < (Plan.make s im t r means').tiles.samples.size := Canvas.samples_pos h
  have hasked := (Plan.make s.exact im t r means).asked_rat g
  refine ⟨?_, hasked, (climbs_timetable s).ascending, (Plan.make s im t r means').stages_run preview g hfloat, length_timetable s⟩
  rw [← (Plan.make s.exact im t r means).trace_run preview g hexact, Journal.trace, List.map_map] at hasked
  exact hasked

/-- A run of the small image, which grows from two colours to four. -/
theorem quantize_progress_columns :
    ∃ s : Settings Float, Draft.small.settings = .ok s ∧
      ((Plan.columns s).run ⟨.never, true⟩ (default : Generator)).journal.events.map (fun e => (e.stage.name, e.percent)) =
        s.timetable ∧
      s.timetable.take 5 = [("initialize", 0), ("grow", 25 / 2), ("grow", 25), ("grow", 25), ("replace", 29)] := by
  obtain ⟨p, hp, -, hcolors, hzero, hreplace, -⟩ := Draft.small_plan
  obtain ⟨hevents, -⟩ := quantize_progress p.settings ⟨2, 2, Buffer.small.pixels 2 2 3⟩ (.columns Nat.two_pos)
    (.ofFn fun _ _ => false) Cluster.lloyd Cluster.lloyd ⟨0, 0, Raster.get_ofFn _ _ _⟩ true (default : Generator)
  refine ⟨p.settings, Draft.settings_of_plan hp, hevents, ?_⟩
  have hslots : p.settings.colorZero.initialSlots = 2 := by rw [hzero]; rfl
  simp only [Settings.timetable, hcolors, hslots, hreplace, evenly]
  norm_num [List.range_succ]

end Tessera
