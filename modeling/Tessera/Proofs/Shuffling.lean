import Mathlib
import Tessera.Order.Generator
import Tessera.Order.Shuffler
/-!
# Shufflers hand out every number equally often

Taking numbers a stretch of a pass at a time is drawing them one at a time (`Shuffler.take_eq_draws`), so what is taken
does not depend on how it is divided (`Shuffler.take_add`). When the orders are permutations, every pass has every number
once, and after any number of draws from the start no number is ahead of another by more than one (`Shuffler.count_draws`).
The orders of a generator are permutations (`Generator.permutation_perm`).
-/

namespace Tessera

/-- Sources whose orders are permutations. -/
class LawfulSource (γ : Type) [OrderSource γ] : Prop where
  order_perm : ∀ (n : Nat) (g : γ), (OrderSource.order n g).1.toList.Perm (List.range n)

/-! ## Generators -/

namespace Generator

theorem swapIfInBounds_perm (a : Array Nat) (i j : Nat) : (a.swapIfInBounds i j).toList.Perm a.toList := by
  unfold Array.swapIfInBounds
  split
  · split
    · exact Array.perm_iff_toList_perm.1 (Array.swap_perm _ _)
    · exact .refl _
  · exact .refl _

theorem shuffleFrom_perm (i : Nat) (a : Array Nat) (g : Generator) : (shuffleFrom i a g).1.toList.Perm a.toList := by
  induction i generalizing a g with
  | zero => exact .refl _
  | succ i ih =>
    rw [shuffleFrom]
    rcases drawUpTo (i + 1) attempts g with ⟨j, g⟩
    exact (ih _ _).trans (swapIfInBounds_perm a _ _)

/-- **Swaps permute.** Whatever numbers are drawn, the order of a generator is a permutation. -/
theorem permutation_perm (n : Nat) (g : Generator) : (permutation n g).1.toList.Perm (List.range n) := by
  have h := shuffleFrom_perm (n - 1) (Array.range n) g
  rwa [Array.toList_range] at h

instance : LawfulSource Generator := ⟨permutation_perm⟩

end Generator

namespace Shuffler

variable {γ : Type} [OrderSource γ] (s : Shuffler) (g : γ)

/-! ## One at a time -/

@[simp] theorem restart_size : (s.restart g).1.size = s.size := rfl

@[simp] theorem ready_size : (s.ready g).1.size = s.size := by
  unfold ready
  split <;> rfl

theorem ready_of_lt {s : Shuffler} (h : s.cursor < s.size) : s.ready g = (s, g) := by
  simp [ready, Nat.not_le.2 h]

theorem ready_cursor_lt (h : 0 < s.size) : (s.ready g).1.cursor < s.size := by
  unfold ready
  split
  · exact h
  · rename_i hlt
    exact Nat.lt_of_not_le hlt

theorem draws_succ (n : Nat) :
    s.draws g (n + 1) = ((s.next g).1 :: ((s.next g).2.1.draws (s.next g).2.2 n).1,
      ((s.next g).2.1.draws (s.next g).2.2 n).2) := rfl

@[simp] theorem draws_size (n : Nat) : (s.draws g n).2.1.size = s.size := by
  induction n generalizing s g with
  | zero => rfl
  | succ n ih => rw [draws_succ, ih]; simp [next]

@[simp] theorem draws_length (n : Nat) : (s.draws g n).1.length = n := by
  induction n generalizing s g with
  | zero => rfl
  | succ n ih => simp [draws_succ, ih]

/-- Drawing goes on where it stopped. -/
theorem draws_add (a b : Nat) :
    s.draws g (a + b) = ((s.draws g a).1 ++ ((s.draws g a).2.1.draws (s.draws g a).2.2 b).1,
      ((s.draws g a).2.1.draws (s.draws g a).2.2 b).2) := by
  induction a generalizing s g with
  | zero => simp [draws]
  | succ a ih => rw [Nat.succ_add, draws_succ, draws_succ, ih]; rfl

/-- The first draw of several begins a new pass when the current one is over. -/
theorem draws_ready (h : 0 < s.size) {n : Nat} (hn : 0 < n) :
    (s.ready g).1.draws (s.ready g).2 n = s.draws g n := by
  obtain ⟨n, rfl⟩ := Nat.exists_eq_succ_of_ne_zero hn.ne'
  have hready : (s.ready g).1.ready (s.ready g).2 = s.ready g :=
    ready_of_lt _ (by rw [ready_size]; exact s.ready_cursor_lt g h)
  have hnext : (s.ready g).1.next (s.ready g).2 = s.next g := by
    unfold next
    rw [hready]
  rw [draws_succ, draws_succ, hnext]

/-! ## A stretch at a time -/

/-- Draws that stay in the pass read the order on. -/
theorem draws_within (n : Nat) (h : s.cursor + n ≤ s.size) :
    s.draws g n = ((List.range n).map fun k => s.order.getD (s.cursor + k) 0, { s with cursor := s.cursor + n }, g) := by
  induction n generalizing s with
  | zero => rfl
  | succ n ih =>
    have hnext : s.next g = (s.order.getD s.cursor 0, { s with cursor := s.cursor + 1 }, g) := by
      unfold next
      rw [ready_of_lt g (by omega)]
    rw [draws_succ, hnext]
    dsimp only
    rw [ih _ (by dsimp only; omega), List.range_succ_eq_map, List.map_cons, List.map_map]
    refine Prod.ext ?_ (Prod.ext ?_ rfl)
    · simp [Function.comp_def, Nat.add_assoc, Nat.add_comm 1]
    · simp [Nat.add_assoc, Nat.add_comm 1]

/-- **Taking is drawing.** A stretch of a pass at a time gives the numbers and the state that one at a time give. -/
theorem take_eq_draws (h : 0 < s.size) (n : Nat) : s.take g n = s.draws g n := by
  induction n using Nat.strong_induction_on generalizing s g with
  | _ n ih =>
    by_cases hn : n = 0
    · subst hn
      rw [take]
      rfl
    have hlt := s.ready_cursor_lt g h
    have hsize := s.ready_size g
    have hpos : 0 < min n (s.ready g).1.remaining := by rw [remaining, hsize]; omega
    rw [take, if_neg hn, ← s.draws_ready g h (Nat.pos_of_ne_zero hn)]
    generalize s.ready g = r at hlt hsize hpos ⊢
    obtain ⟨t, g'⟩ := r
    dsimp only at hlt hsize hpos ⊢
    rw [dif_pos hpos]
    have hwithin := t.draws_within g' (min n t.remaining) (by rw [remaining]; omega)
    have hsplit : n = min n t.remaining + (n - min n t.remaining) := by omega
    conv_rhs => rw [hsplit, draws_add, hwithin]
    rw [ih _ (by omega) _ _ (by dsimp only; omega)]

/-- What is taken in two parts is what is taken at once, and leaves the same state. -/
theorem take_add (h : 0 < s.size) (a b : Nat) :
    s.take g (a + b) = ((s.take g a).1 ++ ((s.take g a).2.1.take (s.take g a).2.2 b).1,
      ((s.take g a).2.1.take (s.take g a).2.2 b).2) := by
  have hsize : 0 < (s.draws g a).2.1.size := by rw [draws_size]; exact h
  rw [take_eq_draws s g h, take_eq_draws s g h, take_eq_draws _ _ hsize, draws_add]

theorem take_size (h : 0 < s.size) (n : Nat) : (s.take g n).2.1.size = s.size := by
  rw [take_eq_draws s g h, draws_size]

theorem take_length (h : 0 < s.size) (n : Nat) : (s.take g n).1.length = n := by
  rw [take_eq_draws s g h, draws_length]

/-! ## Passes -/

/-- A shuffler at the start of a pass whose order is a permutation. -/
structure Fresh (s : Shuffler) : Prop where
  cursor_eq : s.cursor = 0
  order_perm : s.order.toList.Perm (List.range s.size)

theorem start_fresh [LawfulSource γ] (n : Nat) : (start n g).1.Fresh := ⟨rfl, LawfulSource.order_perm n g⟩

theorem restart_fresh [LawfulSource γ] : (s.restart g).1.Fresh := ⟨rfl, LawfulSource.order_perm s.size g⟩

variable {s}

theorem Fresh.draws_of_le (hs : s.Fresh) {n : Nat} (hn : n ≤ s.size) :
    s.draws g n = (s.order.toList.take n, { s with cursor := n }, g) := by
  have hlen : s.order.toList.length = s.size := by rw [hs.order_perm.length_eq, List.length_range]
  rw [draws_within _ _ _ (by rw [hs.cursor_eq]; omega), hs.cursor_eq]
  refine Prod.ext ?_ (Prod.ext (by simp) rfl)
  apply List.ext_getElem
  · rw [List.length_map, List.length_range, List.length_take]
    omega
  · intro k hk _
    have hk : k < s.order.size := by
      rw [List.length_map, List.length_range] at hk
      rw [← Array.length_toList]
      omega
    simp [hk]

/-- From the start of a pass, the pass comes first and then the draws from the start of the next one. -/
theorem Fresh.draws_pass (hs : s.Fresh) (hpos : 0 < s.size) (n : Nat) :
    (s.draws g (s.size + n)).1 = s.order.toList ++
      ((({ s with cursor := s.size } : Shuffler).restart g).1.draws
        (({ s with cursor := s.size } : Shuffler).restart g).2 n).1 := by
  have hlen : s.order.toList.length = s.size := by rw [hs.order_perm.length_eq, List.length_range]
  rw [draws_add, hs.draws_of_le g le_rfl, List.take_of_length_le (Nat.le_of_eq hlen)]
  dsimp only
  congr 1
  by_cases hn : n = 0
  · subst hn
    rfl
  · have hready : ({ s with cursor := s.size } : Shuffler).ready g = ({ s with cursor := s.size } : Shuffler).restart g := by
      simp [ready]
    rw [← draws_ready ({ s with cursor := s.size } : Shuffler) g hpos (Nat.pos_of_ne_zero hn), hready]

theorem Fresh.mem_draws [LawfulSource γ] (hs : s.Fresh) (hpos : 0 < s.size) (n : Nat) :
    ∀ i ∈ (s.draws g n).1, i < s.size := by
  induction n using Nat.strong_induction_on generalizing s g with
  | _ n ih =>
    intro i hi
    by_cases hn : n ≤ s.size
    · rw [hs.draws_of_le g hn] at hi
      exact List.mem_range.1 (hs.order_perm.mem_iff.1 (List.mem_of_mem_take hi))
    · rw [show n = s.size + (n - s.size) by omega, hs.draws_pass g hpos, List.mem_append] at hi
      rcases hi with hi | hi
      · exact List.mem_range.1 (hs.order_perm.mem_iff.1 hi)
      · exact ih _ (by omega) _ (restart_fresh _ g) hpos i hi

/-- **Fair shares.** In so many draws from the start of a pass every number comes up as often as there are full passes in
them, and once more at most, which happens only when the last pass is not full. -/
theorem Fresh.count_draws [LawfulSource γ] (hs : s.Fresh) {i : Nat} (hi : i < s.size) (n : Nat) :
    (s.draws g n).1.count i = n / s.size ∨ (n % s.size ≠ 0 ∧ (s.draws g n).1.count i = n / s.size + 1) := by
  have hpos : 0 < s.size := by omega
  induction n using Nat.strong_induction_on generalizing s g with
  | _ n ih =>
    have hone : s.order.toList.count i = 1 :=
      (hs.order_perm.count_eq i).trans (List.count_eq_one_of_mem List.nodup_range (List.mem_range.2 hi))
    by_cases hn : n < s.size
    · rw [hs.draws_of_le g (by omega), Nat.div_eq_of_lt hn, Nat.mod_eq_of_lt hn]
      have hle : (s.order.toList.take n).count i ≤ 1 := by
        rw [← hone]
        exact (List.take_sublist n _).count_le i
      by_cases hn0 : n = 0
      · subst hn0
        simp
      · simp only
        omega
    · rw [show n = s.size + (n - s.size) by omega, hs.draws_pass g hpos, List.count_append, hone, Nat.add_mod_left,
        Nat.add_div_left _ hpos]
      have hrest := ih (n - s.size) (by omega) (({ s with cursor := s.size } : Shuffler).restart g).2
        (restart_fresh { s with cursor := s.size } g) hi hpos
      rw [restart_size] at hrest
      dsimp only at hrest
      omega

end Shuffler

end Tessera
