import Mathlib
import Tessera.Learn.Schedule
import Tessera.Proofs.Fit
/-!
# Rates in blocks

However a stretch of steps is cut into blocks, the rates of the blocks put together are those of the stretch, with no step
left out or taken twice (`flatten_blockRates`, `flatMap_stretches`), and there are as many blocks as the quotient rounded up
(`length_stretches`). In exact arithmetic a rate lies between the start and the end of its schedule, and later rates lie
between earlier ones and the end (`rate_mem`, `rate_mem_of_le`).
-/

namespace Tessera

/-! ## Spans -/

namespace Span

theorem starting_within (size start stop : Nat) : ∀ x ∈ starting size start stop, x.1 ≤ x.2 ∧ x.2 ≤ stop := by
  fun_induction starting size start stop with
  | case1 start h ih =>
    intro x hx
    rcases List.mem_cons.1 hx with rfl | hx
    · dsimp only
      omega
    · exact ih x hx
  | case2 start h =>
    intro x hx
    cases hx

/-- There are as many spans as the quotient rounded up. -/
theorem length_starting {size : Nat} (hs : 0 < size) (start stop : Nat) :
    (starting size start stop).length = (stop - start + (size - 1)) / size := by
  fun_induction starting size start stop with
  | case1 start h ih =>
    have hstep : stop - start + (size - 1) = stop - (start + size) + (size - 1) + size ∨
        (stop - start ≤ size ∧ stop - (start + size) = 0) := by omega
    rw [List.length_cons, ih]
    rcases hstep with hstep | ⟨hle, hzero⟩
    · rw [hstep, Nat.add_div_right _ hs]
    · rw [hzero, Nat.zero_add, Nat.div_eq_of_lt (by omega)]
      exact (Nat.div_eq_of_lt_le (by omega) (by omega)).symm
  | case2 start h =>
    rw [List.length_nil, Nat.div_eq_of_lt (by omega)]

end Span

namespace Schedule

variable {α : Type} [Scalar α] (s : Schedule α)

/-! ## Blocks -/

@[simp] theorem length_rates (offset : Int) (count : Nat) : (s.rates offset count).length = count := by simp [rates]

/-- Rates go on where they stopped. -/
theorem rates_add (offset : Int) (a b : Nat) : s.rates offset (a + b) = s.rates offset a ++ s.rates (offset + a) b := by
  simp [rates, List.range_add, Function.comp_def, add_assoc]

theorem drop_rates (offset : Int) (a b : Nat) : (s.rates offset (a + b)).drop a = s.rates (offset + a) b := by
  rw [rates_add]
  exact List.drop_left' (length_rates s offset a)

theorem take_rates (offset : Int) (a b : Nat) : (s.rates offset (a + b)).take a = s.rates offset a := by
  rw [rates_add]
  exact List.take_left' (length_rates s offset a)

/-- Blocks of one size make up a stretch. -/
theorem flatten_blockRates (blocks count : Nat) : (s.blockRates blocks count).flatten = s.rates 0 (blocks * count) := by
  induction blocks with
  | zero => simp [blockRates, rates]
  | succ blocks ih =>
    have hsplit : s.blockRates (blocks + 1) count =
        s.blockRates blocks count ++ [s.rates ((blocks * count : Nat) : Int) count] := by
      simp [blockRates, List.range_succ]
    rw [hsplit, List.flatten_append, ih, Nat.succ_mul, rates_add]
    simp

/-- Blocks of at most one size make up a stretch. -/
theorem flatMap_stretches (offset : Int) (total : Nat) {block : Nat} (h : 0 < block) :
    (s.stretches offset total block).flatMap Stretch.rates = s.rates offset total := by
  have hcut : (Span.starting block 0 total).flatMap
      (fun x => ((s.rates offset total).drop x.1).take (x.2 - x.1)) = s.rates offset total :=
    Span.flatMap_starting block 0 total h (s.rates offset total) (length_rates s offset total)
  rw [stretches, List.flatMap_map, ← hcut]
  refine List.flatMap_congr fun x hx => ?_
  obtain ⟨hle, hstop⟩ := Span.starting_within block 0 total x hx
  have htotal : total = x.1 + ((x.2 - x.1) + (total - x.2)) := by omega
  rw [htotal, drop_rates, take_rates]

/-- There are as many blocks as the quotient rounded up. -/
theorem length_stretches (offset : Int) (total : Nat) {block : Nat} (h : 0 < block) :
    (s.stretches offset total block).length = (total + (block - 1)) / block := by
  rw [stretches, List.length_map, Span.length_starting h, Nat.sub_zero]

/-! ## Exact rates -/

theorem clampUnit_rat (x : Rat) : Scalar.clampUnit x = min (max 0 x) 1 := by
  have hzero : (Scalar.ofNat 0 : Rat) = 0 := rfl
  have hone : (Scalar.ofNat 1 : Rat) = 1 := rfl
  unfold Scalar.clampUnit
  rw [hzero, hone]
  dsimp only
  by_cases hpos : 0 < x
  · rw [if_pos hpos, max_eq_right hpos.le]
    by_cases hlt : x < 1
    · rw [if_pos hlt, min_eq_left hlt.le]
    · rw [if_neg hlt, min_eq_right (not_lt.1 hlt)]
  · rw [if_neg hpos, max_eq_left (not_lt.1 hpos), if_pos zero_lt_one, min_eq_left zero_le_one]

/-- The part of the way that a step has come. -/
def part (total step : Int) : Rat := if total ≤ 0 then 1 else Scalar.clampUnit ((step : Rat) / total)

theorem part_mem (total step : Int) : 0 ≤ part total step ∧ part total step ≤ 1 := by
  unfold part
  split_ifs
  · exact ⟨zero_le_one, le_rfl⟩
  · rw [clampUnit_rat]
    exact ⟨le_min (le_max_left _ _) zero_le_one, min_le_right _ _⟩

theorem part_mono (total : Int) {m n : Int} (h : m ≤ n) : part total m ≤ part total n := by
  unfold part
  split_ifs with htotal
  · exact le_rfl
  · have hpos : (0 : Rat) < total := by exact_mod_cast not_le.1 htotal
    have hle : (m : Rat) / total ≤ n / total := by
      have hcast : (m : Rat) ≤ n := by exact_mod_cast h
      gcongr
    rw [clampUnit_rat, clampUnit_rat]
    exact min_le_min_right _ (max_le_max_left _ hle)

/-- An exact rate has come its part of the way from the start to the end. -/
theorem rate_rat (x y : Rat) (total step : Int) :
    (⟨x, y, total⟩ : Schedule Rat).rate step = x + (y - x) * part total step := by
  unfold rate part
  dsimp only
  split_ifs
  · ring
  · rfl

/-- An exact rate lies between the start and the end. -/
theorem rate_mem (x y : Rat) (total step : Int) : (⟨x, y, total⟩ : Schedule Rat).rate step ∈ Set.uIcc x y := by
  obtain ⟨hnonneg, hle⟩ := part_mem total step
  rw [rate_rat, Set.mem_uIcc]
  rcases le_total x y with hxy | hxy
  · exact .inl ⟨by nlinarith, by nlinarith⟩
  · exact .inr ⟨by nlinarith, by nlinarith⟩

/-- Exact rates move toward the end: a later one lies between an earlier one and the end. -/
theorem rate_mem_of_le (x y : Rat) (total : Int) {m n : Int} (h : m ≤ n) :
    (⟨x, y, total⟩ : Schedule Rat).rate n ∈ Set.uIcc ((⟨x, y, total⟩ : Schedule Rat).rate m) y := by
  obtain ⟨-, hle⟩ := part_mem total n
  have hmono := part_mono total h
  rw [rate_rat, rate_rat, Set.mem_uIcc]
  rcases le_total x y with hxy | hxy
  · exact .inl ⟨by nlinarith, by nlinarith⟩
  · exact .inr ⟨by nlinarith, by nlinarith⟩

end Schedule

end Tessera
