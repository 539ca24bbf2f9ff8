import Mathlib
import Tessera.Proofs.Mixes
/-!
# Slots in order of nearness

Colours are compared with a point by their squared distances, and equally distant ones by their places: the lower place
comes first (`Fit.Nearer`). Sorting by distances alone gives this order, since the sort keeps equals as they stood
(`Pick.filter_mergeSort_ascends`). So the first few of them are those with few slots before them
(`Fit.mem_take_slotOrder`), and the first of all is the lowest slot of those that are nearest (`Fit.isNearest_of_slotOrder`).
-/

namespace Tessera

/-! ## Stable order -/

namespace Pick

variable {β : Type}

/-- Sorting by a value keeps those of one value as they stood. -/
theorem filter_mergeSort_ascends (value : β → Rat) (v : Rat) (xs : List β) :
    (xs.mergeSort fun a b => ascends (value a) (value b)).filter (fun a => value a = v) = xs.filter fun a => value a = v := by
  have hequal : (xs.filter fun a => value a = v).Pairwise fun a b => ascends (value a) (value b) = true := by
    refine List.pairwise_of_forall_mem_list ?_
    intro a ha b hb
    simp only [List.mem_filter, decide_eq_true_eq] at ha hb
    simp [ascends_rat, ha.2, hb.2]
  have hsub : (xs.filter fun a => value a = v).Sublist (xs.mergeSort fun a b => ascends (value a) (value b)) := by
    refine List.sublist_mergeSort ?_ ?_ hequal List.filter_sublist
    · intro a b c hab hbc
      simp only [ascends_rat, decide_eq_true_eq] at hab hbc ⊢
      exact hab.trans hbc
    · intro a b
      simpa only [ascends_rat, Bool.or_eq_true, decide_eq_true_eq] using le_total (value a) (value b)
  have hfiltered := hsub.filter fun a => decide (value a = v)
  rw [List.filter_filter] at hfiltered
  simp only [Bool.and_self] at hfiltered
  exact (hfiltered.eq_of_length ((List.mergeSort_perm _ _).filter _).length_eq.symm).symm

/-- Sorted by a value, elements stand by their values, and those of one value in the order in which they stood. -/
theorem pairwise_mergeSort_stable (value : β → Rat) {R : β → β → Prop} {xs : List β} (h : xs.Pairwise R) :
    (xs.mergeSort fun a b => ascends (value a) (value b)).Pairwise
      fun a b => value a < value b ∨ value a = value b ∧ R a b := by
  rw [List.pairwise_iff_forall_sublist]
  intro a b hab
  have hle : value a ≤ value b := List.pairwise_iff_forall_sublist.1 (pairwise_mergeSort_ascends value xs) hab
  rcases hle.lt_or_eq with hlt | heq
  · exact Or.inl hlt
  · have hown := hab.filter fun c => decide (value c = value b)
    rw [filter_mergeSort_ascends] at hown
    simp only [heq, List.filter_cons, decide_true, if_true, List.filter_nil] at hown
    exact Or.inr ⟨heq, List.pairwise_iff_forall_sublist.1 h (hown.trans List.filter_sublist)⟩

/-- The first ones of a list in a strict order are those with few others before them. -/
theorem mem_take_iff_countP_lt {R : β → β → Prop} [DecidableRel R] (hasymm : ∀ a b, R a b → ¬ R b a) {xs : List β}
    (h : xs.Pairwise R) {a : β} (ha : a ∈ xs) (n : Nat) : a ∈ xs.take n ↔ xs.countP (fun b => R b a) < n := by
  induction xs generalizing n with
  | nil => cases ha
  | cons x xs ih =>
    obtain ⟨hfirst, hrest⟩ := List.pairwise_cons.1 h
    rcases List.mem_cons.1 ha with rfl | hlater
    · have hnone : (a :: xs).countP (fun b => R b a) = 0 := by
        rw [List.countP_eq_zero]
        intro b hb
        rcases List.mem_cons.1 hb with rfl | hb
        · simpa using fun hself => hasymm b b hself hself
        · simpa using hasymm a b (hfirst b hb)
      rw [hnone]
      cases n with
      | zero => simp
      | succ n => simp
    · have hne : a ≠ x := by
        rintro rfl
        exact hasymm a a (hfirst a hlater) (hfirst a hlater)
      rw [List.countP_cons_of_pos (by simpa using hfirst a hlater)]
      cases n with
      | zero => simp
      | succ n => simp [hne, ih hrest hlater n]

end Pick

/-! ## Nearer slots -/

namespace Fit

variable (x : Rgb Rat) (colors : List (Rgb Rat))

/-- One slot comes before another one: its colour is nearer to the point, or just as near and in the lower slot. -/
def Nearer (i j : Fin colors.length) : Prop :=
  x.sqDist (colors.get i) < x.sqDist (colors.get j) ∨ x.sqDist (colors.get i) = x.sqDist (colors.get j) ∧ i < j

instance : DecidableRel (Nearer x colors) := fun _ _ => inferInstanceAs (Decidable (_ ∨ _))

/-- A slot has a colour that is nearest to the point, and no lower slot has one. -/
def IsNearest (i : Fin colors.length) : Prop :=
  ∀ j : Fin colors.length, x.sqDist (colors.get i) ≤ x.sqDist (colors.get j) ∧
    (x.sqDist (colors.get j) = x.sqDist (colors.get i) → i ≤ j)

/-- The slots, nearest first. -/
def slotOrder : List (Fin colors.length) :=
  (List.finRange colors.length).mergeSort fun i j => Pick.ascends (x.sqDist (colors.get i)) (x.sqDist (colors.get j))

variable {x colors}

theorem Nearer.asymm {i j : Fin colors.length} (h : Nearer x colors i j) : ¬ Nearer x colors j i := by
  rintro (hlt | ⟨heq, hlt⟩)
  · rcases h with hlt' | ⟨heq', -⟩
    · exact lt_asymm hlt hlt'
    · exact hlt.ne heq'.symm
  · rcases h with hlt' | ⟨-, hlt'⟩
    · exact hlt'.ne heq.symm
    · exact lt_asymm hlt hlt'

theorem Nearer.le {i j : Fin colors.length} (h : Nearer x colors i j) :
    x.sqDist (colors.get i) ≤ x.sqDist (colors.get j) := by
  rcases h with hlt | ⟨heq, -⟩
  · exact hlt.le
  · exact heq.le

theorem mem_slotOrder (i : Fin colors.length) : i ∈ slotOrder x colors :=
  List.mem_mergeSort.2 (List.mem_finRange i)

theorem nodup_slotOrder : (slotOrder x colors).Nodup :=
  (List.mergeSort_perm _ _).nodup_iff.2 (List.nodup_finRange _)

@[simp] theorem length_slotOrder : (slotOrder x colors).length = colors.length := by
  simp [slotOrder, List.length_mergeSort]

/-- Sorting by distances puts the slots in order of nearness. -/
theorem pairwise_slotOrder : (slotOrder x colors).Pairwise (Nearer x colors) :=
  Pick.pairwise_mergeSort_stable (fun i : Fin colors.length => x.sqDist (colors.get i)) (List.pairwise_lt_finRange _)

/-- The first slots in order of nearness are those with few slots before them. -/
theorem mem_take_slotOrder (i : Fin colors.length) (n : Nat) :
    i ∈ (slotOrder x colors).take n ↔ (Finset.univ.filter fun j => Nearer x colors j i).card < n := by
  have hbefore : (slotOrder x colors).countP (fun j => Nearer x colors j i) =
      (Finset.univ.filter fun j => Nearer x colors j i).card := by
    rw [List.countP_eq_length_filter, ← List.toFinset_card_of_nodup (nodup_slotOrder.filter _)]
    congr 1
    ext j
    simp [mem_slotOrder]
  rw [Pick.mem_take_iff_countP_lt (fun _ _ => Nearer.asymm) pairwise_slotOrder (mem_slotOrder i), hbefore]

/-- The first slot in order of nearness is the nearest one. -/
theorem isNearest_of_slotOrder {i : Fin colors.length} {rest : List (Fin colors.length)} (h : slotOrder x colors = i :: rest) :
    IsNearest x colors i := by
  intro j
  have hj : j ∈ slotOrder x colors := mem_slotOrder j
  have hsorted : (slotOrder x colors).Pairwise (Nearer x colors) := pairwise_slotOrder
  rw [h] at hj hsorted
  rcases List.mem_cons.1 hj with rfl | hj
  · exact ⟨le_rfl, fun _ => le_rfl⟩
  · rcases (List.pairwise_cons.1 hsorted).1 j hj with hlt | ⟨heq, hlt⟩
    · exact ⟨hlt.le, fun heq => absurd heq hlt.ne'⟩
    · exact ⟨heq.le, fun _ => hlt.le⟩

/-- What is sorted by distances of colours is the slots in order, each with what belongs to it. -/
theorem mergeSort_zipIdx {γ : Type} (f : Rgb Rat × Nat → γ) (value : γ → Rat) (hvalue : ∀ c, value (f c) = x.sqDist c.1) :
    (colors.zipIdx.map f).mergeSort (fun a b => Pick.ascends (value a) (value b)) =
      (slotOrder x colors).map fun i => f (colors.get i, i.val) := by
  have hslots : colors.zipIdx = (List.finRange colors.length).map fun i => (colors.get i, i.val) := by
    apply List.ext_getElem
    · simp
    · intro i h1 h2
      simp
  rw [hslots, List.map_map, slotOrder]
  refine (List.map_mergeSort ?_).symm
  intro i _ j _
  simp [hvalue]

end Fit

end Tessera
