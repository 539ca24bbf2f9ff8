import Mathlib
import Tessera.Proofs.Cancelling
import Tessera.Proofs.Floats
import Tessera.Proofs.Schedules
/-!
# The samples of a run

A run that is not stopped applies a number of samples that only its settings and the number of samples of the image decide.
It takes them from one walk through random orders, so that no sample is used more than once oftener than another. While
palettes grow, all rates are the start of the schedule; from then on they are the rates of the schedule, step by step.
-/

namespace Tessera

/-! ## Learning rates of checked settings -/

namespace Number

section Real

variable {n : Int} {x : Float} (hx : x.isNaN = false ∧ x.isFinite = true ∧ Decimal.isNegative x = false)
include hx

theorem compareReal_eq :
    compareReal n x = some (compare (n * ((Decimal.decode x).den : Int)) ((Decimal.decode x).num : Int)) := by
  obtain ⟨hnan, hfinite, hsign⟩ := hx
  simp only [compareReal, hnan, hfinite, hsign]
  rfl

theorem whole_le_real (h : le (.whole n) (.real x) = true) :
    n * ((Decimal.decode x).den : Int) ≤ ((Decimal.decode x).num : Int) := by
  simp only [le, compareReal_eq hx, Bool.or_eq_true, beq_iff_eq, Option.some.injEq, compare_lt_iff_lt, compare_eq_iff_eq] at h
  omega

theorem real_le_whole (h : le (.real x) (.whole n) = true) :
    ((Decimal.decode x).num : Int) ≤ n * ((Decimal.decode x).den : Int) := by
  simp only [le, compareReal_eq hx, Bool.or_eq_true, beq_iff_eq, Option.some.injEq, compare_gt_iff_gt, compare_eq_iff_eq] at h
  omega

end Real

/-- Of the whole numbers only zero and one lie in the unit interval. -/
theorem whole_of_unit {n : Int} (hone : le (.whole n) (.real 1.0) = true) (hzero : le (.real 0.0) (.whole n) = true) :
    n = 0 ∨ n = 1 := by
  have hdecode : (Decimal.decode 1.0).num = 2 ^ 52 ∧ (Decimal.decode 1.0).den = 2 ^ 52 ∧
      (Decimal.decode 0.0).num = 0 ∧ 0 < (Decimal.decode 0.0).den := by decide +kernel
  obtain ⟨hnum, hden, hnum', hden'⟩ := hdecode
  have hle := whole_le_real (by decide +kernel) hone
  have hnonneg := real_le_whole (by decide +kernel) hzero
  rw [hnum, hden] at hle
  rw [hnum'] at hnonneg
  have hn : 0 ≤ n := nonneg_of_mul_nonneg_left (by exact_mod_cast hnonneg) (by exact_mod_cast hden')
  omega

end Number

namespace Draft

variable {d : Draft} {s : Settings Float}

/-- A scalar that passes its check lies within the bounds of its field, if whole numbers within them do. -/
theorem scalar?_within {f : Field} {lo hi : Float} (hb : f.bounds? = some (.float lo, .float hi)) (hf : f.isWhole = false)
    (hwhole : ∀ n : Int, Number.le (.whole n) (.real hi) = true → Number.le (.real lo) (.whole n) = true →
      lo ≤ Float.ofInt n ∧ Float.ofInt n ≤ hi)
    (h : checkBounded f (d.get f) = .ok ()) {x : Float} (hx : d.scalar? f = some x) : lo ≤ x ∧ x ≤ hi := by
  simp only [checkBounded, hb] at h
  rw [scalar?] at hx
  cases hv : d.get f with
  | int n =>
    rw [hv] at h hx
    obtain ⟨hmost, hleast⟩ := checkRange_iff.1 h
    cases hx
    exact hwhole n hmost hleast
  | float y =>
    rw [hv] at h hx
    simp only [hf] at h
    obtain ⟨hmost, hleast⟩ := checkRange_iff.1 h
    cases hx
    exact ⟨of_decide_eq_true hleast, of_decide_eq_true hmost⟩
  | _ =>
    rw [hv] at hx
    cases hx

/-- A learning rate that passes its check lies in the unit interval. -/
theorem scalar?_unit {f : Field} (hb : f.bounds? = some (.float 0.0, .float 1.0)) (hf : f.isWhole = false)
    (h : checkBounded f (d.get f) = .ok ()) {x : Float} (hx : d.scalar? f = some x) : 0.0 ≤ x ∧ x ≤ 1.0 := by
  refine scalar?_within hb hf ?_ h hx
  intro n hone hzero
  rcases Number.whole_of_unit hone hzero with rfl | rfl
  · decide +kernel
  · decide +kernel

theorem scalar?_isFinite {f : Field} (hb : f.bounds? = some (.float 0.0, .float 1.0)) (hf : f.isWhole = false)
    (h : checkBounded f (d.get f) = .ok ()) {x : Float} (hx : d.scalar? f = some x) : x.isFinite := by
  obtain ⟨hzero, hone⟩ := scalar?_unit hb hf h hx
  exact Floats.isFinite_of_le_of_le (by decide +kernel) (by decide +kernel) hzero hone

/-- The rate at the start of a run is finite. -/
theorem startRate_isFinite (h : d.settings = .ok s) : s.startRate.isFinite := by
  obtain ⟨-, halpha, -⟩ := settings_fields h
  rw [Settings.startRate, halpha]
  cases hx : d.scalar? .alpha with
  | some x => exact scalar?_isFinite rfl rfl (checkBounded_of_settings h .alpha) hx
  | none =>
    rw [Option.getD_none]
    split <;> decide +kernel

end Draft

/-! ## The walk of a run -/

namespace Plan

open Learner

variable {α γ : Type} [Scalar α] [OrderSource γ] (p : Plan α) (g : γ)

/-- What the acts of a run come to when nobody stops it, with every sample written down when it is applied. -/
def ledger : Ledger α γ := Ledger.performAll p.problem ⟨p.opening (p.learner g), []⟩ p.acts

/-- The samples that a run applies, in order, each with its rate. -/
def updates : List (Nat × α) := (p.ledger g).updates

theorem ledger_eq :
    p.ledger g =
      ⟨(p.opening (p.learner g)).performAll p.problem p.acts, (p.opening (p.learner g)).applied p.problem p.acts⟩ :=
  Ledger.performAll_eq p.problem (p.opening (p.learner g)) [] p.acts

/-- The number of samples of growth. -/
def growTotal : Nat := (p.settings.colorsPerPalette - p.settings.colorZero.initialSlots) * p.block

/-- The number of samples of a run. -/
def total : Nat :=
  (p.settings.colorsPerPalette - p.settings.colorZero.initialSlots + p.settings.replaceIterations + finalBlocks) * p.block

theorem block_pos : 0 < p.block := Nat.lt_of_lt_of_le Nat.zero_lt_one (Nat.le_max_left _ _)

theorem start_slots : p.start.slots = p.settings.colorZero.initialSlots := PaletteSet.ofSeeds_slots _ _ _ _

theorem total_eq : p.total = p.growTotal + (p.settings.replaceIterations + finalBlocks) * p.block := by
  unfold total growTotal
  ring

/-- The rates of all acts: those of growth, and then those of the schedule, step by step. -/
theorem rates_acts :
    p.acts.flatMap Act.rates =
      (List.replicate (p.settings.colorsPerPalette - p.settings.colorZero.initialSlots) p.growRates).flatten ++
        p.schedule.rates 0 ((p.settings.replaceIterations + finalBlocks) * p.block) := by
  have hgrow : p.growth.flatMap Act.rates =
      (List.replicate (p.settings.colorsPerPalette - p.settings.colorZero.initialSlots) p.growRates).flatten := by
    rw [growth, start_slots, List.flatMap_replicate]
    rfl
  have hreplace : p.replacing.flatMap Act.rates = p.schedule.rates 0 p.replaceTotal := by
    rw [replaceTotal, ← Schedule.flatten_blockRates]
    simp [replacing, replaceActs, Act.rates, List.flatMap_assoc, replaceRates]
  have hrefine : p.refining.flatMap Act.rates = p.schedule.rates p.replaceTotal p.finalTotal := by
    rw [← Schedule.flatMap_stretches p.schedule p.replaceTotal p.finalTotal p.block_pos]
    simp [refining, finalActs, Act.rates, List.flatMap_assoc, finalRates]
  have hjoin : p.schedule.rates 0 ((p.settings.replaceIterations + finalBlocks) * p.block) =
      p.schedule.rates 0 p.replaceTotal ++ p.schedule.rates p.replaceTotal p.finalTotal := by
    rw [Nat.add_mul, Schedule.rates_add, Int.zero_add]
    rfl
  rw [acts, List.flatMap_append, List.flatMap_append, hgrow, hreplace, hrefine, hjoin, List.append_assoc]

theorem schedule_eq :
    p.schedule =
      ⟨p.settings.startRate, p.settings.endRate, ((p.settings.replaceIterations + finalBlocks) * p.block : Nat)⟩ := by
  rw [Nat.add_mul]
  rfl

theorem length_growRates : p.growRates.length = p.block := Schedule.length_rates _ _ _

theorem length_rates_acts : (p.acts.flatMap Act.rates).length = p.total := by
  rw [rates_acts, List.length_append, Schedule.length_rates, total_eq, List.length_flatten, List.map_replicate,
    List.sum_replicate, length_growRates]
  rfl

variable {p g} (h : 0 < p.tiles.samples.size)
include h

/-- All samples of a run come from one walk, which begins with the first pass. -/
theorem updates_eq :
    p.updates g = ((p.learner g).shuffler.draws (p.learner g).source p.total).1.zip (p.acts.flatMap Act.rates) := by
  rw [updates, ledger_eq, Work.applied_eq_drawn _ _ h, drawn, length_rates_acts]
  have hwalk := Shuffler.take_eq_draws (p.learner g).shuffler (p.learner g).source h p.total
  exact congrArg (fun x : List Nat × Shuffler × γ => x.1.zip (p.acts.flatMap Act.rates)) hwalk

theorem map_fst_updates : (p.updates g).map Prod.fst = ((p.learner g).shuffler.draws (p.learner g).source p.total).1 := by
  rw [updates_eq h]
  exact List.map_fst_zip (by rw [Shuffler.draws_length, length_rates_acts])

theorem map_snd_updates : (p.updates g).map Prod.snd = p.acts.flatMap Act.rates := by
  rw [updates_eq h]
  exact List.map_snd_zip (by rw [Shuffler.draws_length, length_rates_acts])

theorem length_updates : (p.updates g).length = p.total := by
  rw [← List.length_map Prod.snd, map_snd_updates h, length_rates_acts]

/-- Every sample is used as often as the total divided by the number of samples, rounded down or up. -/
theorem count_updates [LawfulSource γ] {i : Nat} (hi : i < p.tiles.samples.size) :
    ((p.updates g).map Prod.fst).count i = p.total / p.tiles.samples.size ∨
      (p.total % p.tiles.samples.size ≠ 0 ∧
        ((p.updates g).map Prod.fst).count i = p.total / p.tiles.samples.size + 1) := by
  rw [map_fst_updates h]
  exact (Shuffler.start_fresh g p.tiles.samples.size).count_draws _ hi p.total

theorem updates_lt [LawfulSource γ] : ∀ u ∈ p.updates g, u.1 < p.tiles.samples.size := by
  intro u hu
  have hmem : u.1 ∈ (p.updates g).map Prod.fst := List.mem_map_of_mem hu
  rw [map_fst_updates h] at hmem
  exact (Shuffler.start_fresh g p.tiles.samples.size).mem_draws _ h p.total _ hmem

/-- The rates of growth are the first of a run. -/
theorem map_snd_take_updates :
    ((p.updates g).take p.growTotal).map Prod.snd =
      (List.replicate (p.settings.colorsPerPalette - p.settings.colorZero.initialSlots) p.growRates).flatten := by
  rw [List.map_take, map_snd_updates h, rates_acts]
  refine List.take_left' ?_
  rw [List.length_flatten, List.map_replicate, List.sum_replicate, length_growRates]
  rfl

/-- After growth every step has its rate of the schedule. -/
theorem map_snd_drop_updates :
    ((p.updates g).drop p.growTotal).map Prod.snd =
      (List.range ((p.settings.replaceIterations + finalBlocks) * p.block)).map fun (n : Nat) => p.schedule.rate n := by
  have hrates : p.schedule.rates 0 ((p.settings.replaceIterations + finalBlocks) * p.block) =
      (List.range ((p.settings.replaceIterations + finalBlocks) * p.block)).map fun (n : Nat) => p.schedule.rate n := by
    simp [Schedule.rates]
  rw [List.map_drop, map_snd_updates h, rates_acts, ← hrates]
  refine List.drop_left' ?_
  rw [List.length_flatten, List.map_replicate, List.sum_replicate, length_growRates]
  rfl

end Plan

/-- Growth goes on at the rate of the start. -/
theorem Plan.growRates_beq {p : Plan Float} (h : p.settings.startRate.isFinite) :
    ∀ r ∈ p.growRates, (r == p.settings.startRate) = true := by
  intro r hr
  obtain ⟨k, -, rfl⟩ := List.mem_map.1 hr
  have hpos := p.block_pos
  rw [Schedule.rate, if_neg (by simp only [Schedule.constant]; omega)]
  exact Floats.beq_add_sub_self_mul h (Floats.isFinite_clampUnit _)

/-! ## Quantizing -/

/-- **The budget of a run.** Let settings and an image with samples be accepted, and let the samples come in any lawful orders.
The run that nobody stops composes what its acts come to, and what they come to with every sample written down when it is
applied is the same. They apply as many samples as the slots to be added, the blocks with reseeding and ten blocks more take, a
fixed number for each. Every sample of the image is used as often as the others, but for one time where the division leaves a
rest. Growth keeps to the rate of the start, and step `n` behind it has rate `n` of the schedule, which leads from the rate of
the start to that of the end over all of these steps. In exact arithmetic the rates lie between the two, and each lies between
any earlier one and the end. -/
theorem quantize_budget {γ : Type} [OrderSource γ] [LawfulSource γ] {d : Draft} {means : Cluster.Means Float}
    (hmeans : means.Lawful) {b : Buffer} {p : Plan Float} {source : Result γ} {n : Number} {g : γ} (workers : Value)
    (hp : d.planWith means b = .ok p) (hm : d.missing = []) (hw : Number.ofValue workers = .ok n) (hg : source = .ok g)
    (hsamples : 0 < p.tiles.samples.size) (preview : Bool) :
    ∃ o : Outcome Float, d.quantizeWith means b source workers ⟨.never, preview⟩ = .ok (p, o) ∧
      o.composition.cancelled = false ∧
      (p.ledger g).work = (p.opening (p.learner g)).performAll p.problem p.acts ∧
      o.composition = p.compose (p.deepened (p.ledger g).work.set) false ∧
      p.settings.colorZero.initialSlots ≤ p.settings.colorsPerPalette ∧
      (p.updates g).length = (p.settings.colorsPerPalette - p.settings.colorZero.initialSlots +
        p.settings.replaceIterations + 10) * p.settings.blockIterations p.tiles.samples.size ∧
      (∀ u ∈ p.updates g, u.1 < p.tiles.samples.size) ∧
      (∀ i < p.tiles.samples.size,
        ((p.updates g).map Prod.fst).count i = (p.updates g).length / p.tiles.samples.size ∨
        ((p.updates g).length % p.tiles.samples.size ≠ 0 ∧
          ((p.updates g).map Prod.fst).count i = (p.updates g).length / p.tiles.samples.size + 1)) ∧
      (∀ u ∈ (p.updates g).take p.growTotal, (u.2 == p.settings.startRate) = true) ∧
      ((p.updates g).drop p.growTotal).map Prod.snd =
        (List.range ((p.settings.replaceIterations + 10) * p.block)).map (fun (k : Nat) => p.schedule.rate k) ∧
      p.schedule = ⟨p.settings.startRate, p.settings.endRate, ((p.settings.replaceIterations + 10) * p.block : Nat)⟩ ∧
      ∀ x y : Rat, (∀ k, (⟨x, y, p.schedule.total⟩ : Schedule Rat).rate k ∈ Set.uIcc x y) ∧
        ∀ j k, j ≤ k → (⟨x, y, p.schedule.total⟩ : Schedule Rat).rate k ∈
          Set.uIcc ((⟨x, y, p.schedule.total⟩ : Schedule Rat).rate j) y := by
  have hsettings := Draft.settings_of_plan hp
  have hempty : ¬ p.tiles.samples.isEmpty = true := by simpa using hsamples.ne'
  have hrun : p.run ⟨.never, preview⟩ g = p.complete ⟨.never, preview⟩ g := by
    rw [Plan.run, if_neg hempty, p.runWith_never .never]
  have hledger : (p.ledger g).work = (p.opening (p.learner g)).performAll p.problem p.acts := by rw [Plan.ledger_eq]
  have hpmeans : p.means.Lawful := by
    rw [Draft.means_of_plan hp]
    exact hmeans
  refine ⟨p.run ⟨.never, preview⟩ g, Draft.quantizeWith_eq_ok hp hm hw hg _, p.run_never_not_cancelled preview g, hledger, ?_, ?_,
    Plan.length_updates hsamples, Plan.updates_lt hsamples, ?_, ?_, Plan.map_snd_drop_updates hsamples, p.schedule_eq,
    fun x y => ⟨Schedule.rate_mem x y _, fun j k => Schedule.rate_mem_of_le x y _⟩⟩
  · rw [hrun, hledger, ← Plan.afterRefining_eq]
    rfl
  · have hslots := (Plan.start_shape hpmeans (Draft.inRange hsettings)).slots_le
    rwa [Plan.start_slots] at hslots
  · intro i hi
    rw [Plan.length_updates hsamples]
    exact Plan.count_updates hsamples hi
  · intro u hu
    have hmem : u.2 ∈ ((p.updates g).take p.growTotal).map Prod.snd := List.mem_map_of_mem hu
    rw [Plan.map_snd_take_updates hsamples, List.mem_flatten] at hmem
    obtain ⟨rates, hrates, hmem⟩ := hmem
    rw [List.eq_of_mem_replicate hrates] at hmem
    exact Plan.growRates_beq (Draft.startRate_isFinite hsettings) u.2 hmem

/-- A run on a small image with three samples, which uses each of them seven or eight times. -/
theorem quantize_budget_small :
    ∃ p o, Draft.small.quantize Buffer.small (.int 7) (.int 2) ⟨.never, false⟩ = .ok (p, o) ∧
      p.tiles.samples.size = 3 ∧ o.composition.cancelled = false ∧ (p.updates (Generator.ofSeed 7)).length = 22 ∧
      (∀ i < 3, ((p.updates (Generator.ofSeed 7)).map Prod.fst).count i = 7 ∨
        ((p.updates (Generator.ofSeed 7)).map Prod.fst).count i = 8) ∧
      ∀ u ∈ (p.updates (Generator.ofSeed 7)).take 2, (u.2 == p.settings.startRate) = true := by
  obtain ⟨p, hp, hsamples, hcolors, hzero, hreplace, hblock⟩ := Draft.small_plan
  have hslots : p.settings.colorZero.initialSlots = 2 := by rw [hzero]; rfl
  have hg : Generator.ofValue (.int 7) = .ok (Generator.ofSeed 7) := rfl
  obtain ⟨o, ho, hcancelled, -, -, -, hlength, -, hcount, hgrow, -, -, -⟩ :=
    quantize_budget Cluster.lloyd_lawful (.int 2) hp (by decide +kernel) rfl hg (by omega) false
  have htotal : (p.updates (Generator.ofSeed 7)).length = 22 := by
    rw [hlength, hcolors, hslots, hreplace, show p.settings.blockIterations p.tiles.samples.size = 1 from hblock]
  have hgrowth : p.growTotal = 2 := by rw [Plan.growTotal, hcolors, hslots, hblock]
  rw [hsamples, htotal] at hcount
  rw [hgrowth] at hgrow
  exact ⟨p, o, ho, hsamples, hcancelled, htotal, fun i hi => (hcount i hi).imp id And.right, hgrow⟩

end Tessera
