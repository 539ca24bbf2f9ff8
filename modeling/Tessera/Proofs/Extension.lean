import Mathlib
import Tessera.Proofs.Palettes
import Tessera.Proofs.Residuals
/-!
# Palettes with further candidates

Adding a slot gives every palette one further candidate, and padding gives it copies of one that it has. What each
candidate list costs decides the errors of tiles, entry by entry (`Fit.errors_le`), and so the error of the set. The distance
to the nearest candidate does not grow when there are more of them (`Fit.cost_none_anti`).
-/

namespace Tessera

/-! ## Candidates of extensions -/

namespace PaletteSet

variable {α : Type} (s : PaletteSet α)

theorem firstCandidate_lt_slots {s : PaletteSet α} (h : 0 < s.candidateCount) : s.firstCandidate < s.slots := by
  rw [candidateCount] at h
  omega

theorem candidatesOf_addSlot (filler : Rgb α) (seeds : List (Rgb α)) {p : Nat} (hp : p < s.size)
    (h : 0 < s.candidateCount) :
    (s.addSlot filler seeds).candidatesOf p = s.candidatesOf p ++ [seeds.getD p filler] := by
  have hfirst := firstCandidate_lt_slots h
  have hp : p < s.palettes.length := hp
  have hpalette : (s.addSlot filler seeds).palettes[p]? = some (s.palettes[p].push (seeds.getD p filler)) := by
    refine (List.getElem?_map ..).trans ?_
    rw [List.getElem?_zipIdx, List.getElem?_eq_getElem hp, Option.map_some, Nat.zero_add]
    rfl
  rw [candidatesOf_eq_elim, candidatesOf_eq_elim, hpalette, List.getElem?_eq_getElem hp]
  change (s.palettes[p].push (seeds.getD p filler)).toList.drop s.firstCandidate = _
  rw [Vector.toList_push]
  exact List.drop_append_of_le_length (by simpa using hfirst.le)

/-- Padding repeats the last candidate. -/
theorem candidatesOf_padded (n : Nat) {p : Nat} (hp : p < s.size) (h : 0 < s.candidateCount) :
    ∃ c, (s.candidatesOf p).getLast? = some c ∧
      (s.padded n).candidatesOf p = s.candidatesOf p ++ List.replicate (n - s.slots) c := by
  have hfirst := firstCandidate_lt_slots h
  have hpos : 0 < s.slots := by omega
  have hp : p < s.palettes.length := hp
  refine ⟨s.palettes[p][s.slots - 1], ?_, ?_⟩
  · rw [candidatesOf_eq_elim, List.getElem?_eq_getElem hp, Option.elim_some, List.getLast?_drop, if_neg (by simp; omega),
      List.getLast?_eq_getElem?, Vector.length_toList, Vector.getElem?_toList]
    exact Vector.getElem?_eq_getElem _
  · rw [padded, dif_pos hpos, candidatesOf_eq_elim, candidatesOf_eq_elim]
    dsimp only
    rw [List.getElem?_map, List.getElem?_eq_getElem hp]
    change (s.palettes[p] ++ Vector.replicate (n - s.slots) s.palettes[p][s.slots - 1]).toList.drop s.firstCandidate = _
    rw [Vector.toList_append, Vector.toList_replicate]
    exact List.drop_append_of_le_length (by simpa using hfirst.le)

end PaletteSet

/-! ## Errors by costs -/

namespace Fit

variable (rule : Option (MixRule Rat)) (ts : TileSet) {s t : PaletteSet Rat}

/-- One row of errors after the other is at most another, entry by entry. -/
abbrev RowsLe (xs ys : List (List Rat)) : Prop := List.Forall₂ (List.Forall₂ (· ≤ ·)) xs ys

theorem rowsLe_refl (xs : List (List Rat)) : RowsLe xs xs :=
  List.forall₂_same.2 fun _ _ => List.forall₂_same.2 fun _ _ => le_rfl

theorem errors_eq_map (s : PaletteSet Rat) :
    errors rule ts s = (List.range ts.tiles.length).map fun i => (List.range s.size).map fun p =>
      ((ts.entries.filter fun e => e.tile == i).map (entryCost rule (s.candidatesOf p))).sum := by
  simp only [errors, errorsBy_eq_sum, Scalar.sum_rat]

/-- Errors are compared by the costs of colours under each palette. -/
theorem errors_le (rule rule' : Option (MixRule Rat)) (ts : TileSet) (hsize : t.size = s.size)
    (hcost : ∀ p < s.size, ∀ x, cost rule (t.candidatesOf p) x ≤ cost rule' (s.candidatesOf p) x) :
    RowsLe (errors rule ts t) (errors rule' ts s) := by
  rw [errors_eq_map, errors_eq_map, hsize, RowsLe, List.forall₂_map_left_iff, List.forall₂_map_right_iff, List.forall₂_same]
  intro i _
  rw [List.forall₂_map_left_iff, List.forall₂_map_right_iff, List.forall₂_same]
  intro p hp
  refine List.sum_le_sum fun e _ => ?_
  exact mul_le_mul_of_nonneg_right (hcost p (List.mem_range.1 hp) _) (by rw [Scalar.ofNat_rat]; exact Nat.cast_nonneg _)

/-- The least error of a row is at most that of a row with greater entries. -/
theorem choose_snd_le {xs ys : List Rat} (h : List.Forall₂ (· ≤ ·) xs ys) : (choose xs).2 ≤ (choose ys).2 := by
  cases ys with
  | nil => rw [List.forall₂_nil_right_iff.1 h]
  | cons y ys =>
    have hfirst : (y :: ys)[0]? = some y := rfl
    obtain ⟨hchosen, -⟩ := choose_le hfirst
    obtain ⟨hlt, hget⟩ := List.getElem?_eq_some_iff.1 hchosen
    have hlt' : (choose (y :: ys)).1 < xs.length := h.length_eq ▸ hlt
    have hle := h.get hlt' hlt
    obtain ⟨-, hleast⟩ := choose_le (List.getElem?_eq_getElem hlt')
    exact hleast.trans (hle.trans_eq hget)

theorem meanError_le_of_rowsLe (h : RowsLe (errors rule ts t) (errors rule ts s)) :
    meanError rule ts t ≤ meanError rule ts s := by
  apply meanError_le_of_sum_le
  rw [assign, assign, List.map_map, List.map_map]
  refine List.Forall₂.sum_le_sum ?_
  rw [List.forall₂_map_left_iff, List.forall₂_map_right_iff]
  exact h.imp fun _ _ => choose_snd_le

/-! ## The nearest of more candidates -/

/-- With further candidates the nearest one is no farther away. -/
theorem cost_none_anti {cs ds : List (Rgb Rat)} (h : cs ≠ []) (hsub : cs ⊆ ds) (x : Rgb Rat) :
    cost none ds x ≤ cost none cs x := by
  obtain ⟨c, hc, hcost⟩ := cost_none_eq x h
  rw [hcost]
  exact cost_none_le x (hsub (List.mem_of_getElem? hc))

/-- A new slot does not raise the plain error of any tile under any palette. -/
theorem errors_none_addSlot_le (hc : 0 < s.candidateCount) (filler : Rgb Rat) (seeds : List (Rgb Rat)) :
    RowsLe (errors none ts (s.addSlot filler seeds)) (errors none ts s) := by
  refine errors_le none none ts (s.addSlot_size filler seeds) fun p hp x => ?_
  rw [s.candidatesOf_addSlot filler seeds hp hc]
  exact cost_none_anti (PaletteSet.candidatesOf_ne_nil hp hc) (List.subset_append_left _ _) x

end Fit

end Tessera
