import Mathlib
import Tessera.Depth
import Tessera.Proofs.Choice
import Tessera.Start
/-!
# Shapes of palette sets

Writing to slots changes neither the policy nor the number of palettes and slots; a new slot adds one; padding fills up to
a length. The starting palettes are as many as asked for, if k-means keeps the number of its centres
(`Cluster.length_clusters`). That, and that every label is the number of a centre, is all that is assumed of k-means
(`Cluster.Means.Lawful`).
-/

namespace Tessera

/-! ## Writing keeps the shape -/

namespace PaletteSet

variable {α : Type} (s : PaletteSet α)

@[simp] theorem changeColor_zero (p slot : Nat) (f : Rgb α → Rgb α) : (s.changeColor p slot f).zero = s.zero := by
  unfold changeColor
  split
  · rfl
  split
  · split <;> rfl
  · rfl

@[simp] theorem changeColor_slots (p slot : Nat) (f : Rgb α → Rgb α) : (s.changeColor p slot f).slots = s.slots := by
  unfold changeColor
  split
  · rfl
  split
  · split <;> rfl
  · rfl

@[simp] theorem changeColor_size (p slot : Nat) (f : Rgb α → Rgb α) : (s.changeColor p slot f).size = s.size := by
  unfold changeColor
  split
  · rfl
  split
  · split
    · simp [size, fillSlot]
    · rfl
  · simp [size, modifyAt]

@[simp] theorem setColor_zero (p slot : Nat) (c : Rgb α) : (s.setColor p slot c).zero = s.zero :=
  s.changeColor_zero p slot _

@[simp] theorem setColor_slots (p slot : Nat) (c : Rgb α) : (s.setColor p slot c).slots = s.slots :=
  s.changeColor_slots p slot _

@[simp] theorem setColor_size (p slot : Nat) (c : Rgb α) : (s.setColor p slot c).size = s.size :=
  s.changeColor_size p slot _

/-- `t` has the policy of `s`, and as many slots and palettes. -/
structure SameShape (s t : PaletteSet α) : Prop where
  zero_eq : t.zero = s.zero
  slots_eq : t.slots = s.slots
  size_eq : t.size = s.size

theorem SameShape.refl : s.SameShape s := ⟨rfl, rfl, rfl⟩

variable {s} in
theorem SameShape.trans {t u : PaletteSet α} (h : s.SameShape t) (h' : t.SameShape u) : s.SameShape u :=
  ⟨h'.zero_eq.trans h.zero_eq, h'.slots_eq.trans h.slots_eq, h'.size_eq.trans h.size_eq⟩

variable {s} in
theorem SameShape.changeColor {t : PaletteSet α} (h : s.SameShape t) (p slot : Nat) (f : Rgb α → Rgb α) :
    s.SameShape (t.changeColor p slot f) :=
  ⟨(t.changeColor_zero p slot f).trans h.zero_eq, (t.changeColor_slots p slot f).trans h.slots_eq,
    (t.changeColor_size p slot f).trans h.size_eq⟩

variable {s} in
theorem SameShape.candidateCount_eq {t : PaletteSet α} (h : s.SameShape t) : t.candidateCount = s.candidateCount := by
  rw [candidateCount, candidateCount, firstCandidate, firstCandidate, h.zero_eq, h.slots_eq]

@[simp] theorem addSlot_zero (filler : Rgb α) (seeds : List (Rgb α)) : (s.addSlot filler seeds).zero = s.zero := rfl

@[simp] theorem addSlot_slots (filler : Rgb α) (seeds : List (Rgb α)) : (s.addSlot filler seeds).slots = s.slots + 1 := rfl

@[simp] theorem addSlot_size (filler : Rgb α) (seeds : List (Rgb α)) : (s.addSlot filler seeds).size = s.size := by
  simp [size, addSlot]

@[simp] theorem padded_zero (n : Nat) : (s.padded n).zero = s.zero := by
  unfold padded
  split <;> rfl

@[simp] theorem padded_size (n : Nat) : (s.padded n).size = s.size := by
  unfold padded
  split
  · simp [size]
  · rfl

theorem padded_slots (n : Nat) (h : 0 < s.slots) : (s.padded n).slots = max n s.slots := by
  unfold padded
  rw [dif_pos h]
  show s.slots + (n - s.slots) = _
  omega

theorem ofSeeds_zero (zero : ColorZero) (shared transparent : Rgb α) (seeds : List (Rgb α)) :
    (ofSeeds zero shared transparent seeds).zero = zero := by
  cases zero <;> rfl

theorem ofSeeds_slots (zero : ColorZero) (shared transparent : Rgb α) (seeds : List (Rgb α)) :
    (ofSeeds zero shared transparent seeds).slots = zero.initialSlots := by
  cases zero <;> rfl

theorem ofSeeds_size (zero : ColorZero) (shared transparent : Rgb α) (seeds : List (Rgb α)) :
    (ofSeeds zero shared transparent seeds).size = seeds.length := by
  cases zero <;> simp [ofSeeds, size]

end PaletteSet

namespace Depth

variable {α : Type} [Scalar α] (bits : Nat) (s : PaletteSet α)

@[simp] theorem reduce_zero : (reduce bits s).zero = s.zero := rfl

@[simp] theorem reduce_slots : (reduce bits s).slots = s.slots := rfl

@[simp] theorem reduce_size : (reduce bits s).size = s.size := by simp [reduce, PaletteSet.size]

end Depth

/-! ## As many clusters as asked for -/

namespace Cluster

variable {α : Type} [Scalar α]

theorem length_seedsFrom (points : List (Rgb α)) (n : Nat) (nearest : List α) : (seedsFrom points n nearest).length = n := by
  induction n generalizing nearest with
  | zero => rfl
  | succ n ih => simp [seedsFrom, ih]

theorem distinct_le_length (points : List (Rgb α)) : distinct points ≤ points.length := by
  induction points with
  | nil => exact Nat.le_refl 0
  | cons p ps ih =>
    rw [distinct, List.length_cons]
    split <;> omega

/-- With more points than clusters, there is a seed for every cluster. -/
theorem length_seeds {points : List (Rgb α)} (weights : List α) {k : Nat} (h : 0 < k) (hk : k ≤ points.length) :
    (seeds points weights k).length = k := by
  simp only [seeds, List.length_cons, length_seedsFrom]
  omega

theorem relocate_length (centers : List (Rgb α)) (ps : List (Weighted α)) (labels : List Nat) (s : Sums α) :
    (relocate centers ps labels s).sum.length = s.sum.length := by
  rw [relocate]
  split
  · refine List.foldlRecOn _ _ (motive := fun t : Sums α => t.sum.length = s.sum.length) rfl ?_
    rintro t ht ⟨c, i⟩ _
    dsimp only
    split
    · simpa [relocateOne] using ht
    · exact ht
  · rfl

theorem round_length (ps : List (Weighted α)) (centers : List (Rgb α)) : (round ps centers).2.length = centers.length := by
  simp [round, average, relocate_length, sumsOf]

theorem rounds_length (ps : List (Weighted α)) (tolerance : α) (n : Nat) (previous : Option (List Nat))
    (centers : List (Rgb α)) : (rounds ps tolerance n previous centers).2.length = centers.length := by
  induction n generalizing previous centers with
  | zero => rfl
  | succ n ih =>
    have hround := round_length ps centers
    rw [rounds]
    generalize round ps centers = r at hround ⊢
    dsimp only
    split
    · exact hround
    split
    · exact hround
    · rw [ih, hround]

theorem lloyd_length (points : List (Rgb α)) (weights : List α) (start : List (Rgb α)) (iterations : Nat) :
    (lloyd points weights start iterations).2.length = start.length := by
  simp [lloyd, rounds_length]

theorem mem_labelAll {centers : List (Rgb α)} (h : centers ≠ []) (points : List (Rgb α)) :
    ∀ l ∈ labelAll centers points, l < centers.length := by
  intro l hl
  obtain ⟨p, -, rfl⟩ := List.mem_map.1 hl
  have hne : centers.map p.sqDist ≠ [] := by simpa using h
  simpa using Pick.argLeast_lt hne

/-- Rounds label every point with one of the centres. -/
theorem rounds_labels (ps : List (Weighted α)) (tolerance : α) (n : Nat) (previous : Option (List Nat))
    {centers : List (Rgb α)} (h : centers ≠ []) :
    (rounds ps tolerance n previous centers).1.length = ps.length ∧
      ∀ l ∈ (rounds ps tolerance n previous centers).1, l < centers.length := by
  induction n generalizing previous centers with
  | zero => exact ⟨by simp [rounds, labelAll], mem_labelAll h _⟩
  | succ n ih =>
    have hround := round_length ps centers
    have hmoved : (round ps centers).2 ≠ [] := by
      rw [ne_eq, ← List.length_eq_zero_iff, hround, List.length_eq_zero_iff]
      exact h
    have hlabels : (round ps centers).1 = labelAll centers (ps.map Weighted.point) := rfl
    rw [rounds]
    generalize round ps centers = r at hround hmoved hlabels ⊢
    obtain ⟨labels, moved⟩ := r
    dsimp only at hround hmoved hlabels ⊢
    rw [← hround]
    split
    · rw [hlabels, hround]
      exact ⟨by simp [labelAll], mem_labelAll h _⟩
    split
    · exact ⟨by simp [labelAll], mem_labelAll hmoved _⟩
    · exact ih _ hmoved

theorem lloyd_labels {points : List (Rgb α)} {weights : List α} (hw : weights.length = points.length) {start : List (Rgb α)}
    (h : start ≠ []) (iterations : Nat) :
    (lloyd points weights start iterations).1.length = points.length ∧
      ∀ l ∈ (lloyd points weights start iterations).1, l < start.length := by
  have hcenters : (start.map fun c => c.sub (center points)) ≠ [] := by simpa using h
  have hrounds := rounds_labels (points.zipWith (fun p w => (⟨p.sub (center points), w⟩ : Weighted α)) weights)
    (spread points * Scalar.ratio 1 10000) iterations none hcenters
  rw [List.length_zipWith, hw, Nat.min_self, List.length_map] at hrounds
  exact hrounds

/-- What is assumed of k-means. For fewer centres than there are different points it keeps their number, and it gives every
point the label of a centre. -/
structure Means.Lawful (means : Means α) : Prop where
  centers : ∀ {points : List (Rgb α)} {weights : List α} {start : List (Rgb α)} (iterations : Nat),
    weights.length = points.length → start ≠ [] → start.length < distinct points →
    (means points weights start iterations).2.length = start.length
  labels : ∀ {points : List (Rgb α)} {weights : List α} {start : List (Rgb α)} (iterations : Nat),
    weights.length = points.length → start ≠ [] → start.length < distinct points →
    (means points weights start iterations).1.length = points.length ∧
      ∀ l ∈ (means points weights start iterations).1, l < start.length

theorem lloyd_lawful : Means.Lawful (lloyd : Means α) :=
  ⟨fun iterations _ _ _ => lloyd_length _ _ _ iterations, fun iterations hw hs _ => lloyd_labels hw hs iterations⟩

/-- Points are gathered into as many clusters as asked for. -/
theorem length_clusters {means : Means α} (hmeans : means.Lawful) {points : List (Rgb α)} {weights : List α}
    (hw : weights.length = points.length) {k : Nat} (h : 0 < k) (iterations : Nat) :
    (clusters means points weights k iterations).centers.length = k := by
  rw [clusters]
  split
  · simp [eachOwn]
  · rename_i hmany
    have hdistinct := distinct_le_length points
    have hseeds := length_seeds weights h (hdistinct.trans' (Nat.lt_of_not_le hmany).le)
    have hstart : ((seeds points weights k).map fun i => points.getD i (Rgb.fill (Scalar.ofNat 0))) ≠ [] := by
      simp [← List.length_pos_iff, hseeds, h]
    have hcenters := hmeans.centers (max 1 iterations) hw hstart (by rw [List.length_map, hseeds]; omega)
    rw [List.length_map, hseeds] at hcenters
    simp only [refined]
    split
    · exact hcenters
    · simpa [recenter] using hcenters

end Cluster

namespace Start

variable {α : Type} [Scalar α]

theorem length_seeds {means : Cluster.Means α} (hmeans : means.Lawful) (ts : TileSet) {k : Nat} (h : 0 < k) :
    (seeds means ts k).length = k := by
  rw [seeds]
  split
  · simp
  · exact Cluster.length_clusters hmeans (by simp) h _

end Start

end Tessera
