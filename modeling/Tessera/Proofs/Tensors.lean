import Mathlib
import Tessera.Proofs.Guards
import Tessera.Tensor
/-!
# Tensors as lists

A list of values that can each be read is a tensor of one dimension, and on such tensors the functions that join shapes work
as they do on lists. Four dimensions of which the middle ones change places are read in another order.
-/

namespace Tessera

variable {β γ : Type}

theorem flatMap_range {m : Nat} (f : Nat → List β) : (List.range m).flatMap f = (List.ofFn fun i : Fin m => f i).flatten := by
  rw [List.flatMap, ← List.map_coe_finRange_eq_range, List.map_map, List.ofFn_eq_map]
  rfl

theorem filterMap_range {m : Nat} {f : Nat → Option β} {g : Fin m → β} (h : ∀ i : Fin m, f i = some (g i)) :
    (List.range m).filterMap f = List.ofFn g := by
  rw [← List.map_coe_finRange_eq_range, List.filterMap_map, List.ofFn_eq_map, ← List.filterMap_eq_map]
  exact List.filterMap_congr fun i _ => h i

/-! ## Rows of values -/

theorem Value.within_int {lo hi n : Int} (h : lo ≤ n ∧ n < hi) : Value.within lo hi (.int n) = .ok n := by
  simp only [within, integer, bind, Except.bind, pure, Except.pure, if_pos h]

namespace Tensor

theorem ofTable_row (f : β → Value) (hcell : ∀ x, Table.ofValue (f x) = .cell (f x)) (xs : List β) :
    ofTable (Table.ofValue (.list (xs.map f))) = .ok ⟨[xs.length], (xs.map f).toArray⟩ := by
  have hvalues : Table.ofValues (xs.map f) = xs.map fun x => .cell (f x) := by
    induction xs with
    | nil => rfl
    | cons x xs ih => rw [List.map_cons, Table.ofValues, hcell, ih, List.map_cons]
  have hshape : Table.shapeOfAll? (xs.map fun x => Table.cell (f x)) = some [] := by
    clear hvalues
    induction xs with
    | nil => rfl
    | cons x xs ih => simp [Table.shapeOfAll?, Table.shape?, ih]
  have hflat : Table.flattenAll (xs.map fun x => Table.cell (f x)) = xs.map f := by
    clear hvalues hshape
    induction xs with
    | nil => rfl
    | cons x xs ih => simp [Table.flattenAll, Table.flatten, ih]
  simp only [ofTable, Table.ofValue, Table.shape, Table.shape?, Table.flatten, hvalues, hshape, hflat, Option.map_some,
    Option.elim_some, List.length_map]
  rfl

/-- A list of values that can each be read is a row of what they stand for. -/
theorem ofValue_list {read : Value → Result γ} {f : β → Value} {g : β → γ} (hcell : ∀ x, Table.ofValue (f x) = .cell (f x))
    {xs : List β} (hread : ∀ x ∈ xs, read (f x) = .ok (g x)) :
    ofValue read (.list (xs.map f)) = .ok ⟨[xs.length], (xs.map g).toArray⟩ := by
  have hdata : (xs.map f).mapM read = .ok (xs.map g) := by
    rw [List.mapM_map]
    exact Guarded.mapM_eq_ok hread
  simp only [ofValue, ofTable_row f hcell, bind, Except.bind, List.mapM_toArray, hdata]
  rfl

theorem place_row {n i : Nat} (h : i < n) : place 1 [n] [n] i = i := by
  simp only [place, Nat.mul_one, Nat.add_zero, Nat.mod_eq_of_lt h]
  split <;> omega

theorem spread_row {n : Nat} {xs : List β} (h : xs.length = n) : (⟨[n], xs.toArray⟩ : Tensor β).spread [n] = xs := by
  subst h
  have hcells : cells [xs.length] = xs.length := by simp [cells]
  simp only [spread, hcells, List.reverse_singleton]
  rw [filterMap_range (g := fun i => xs.get i)]
  · exact List.ofFn_get xs
  · intro i
    rw [place_row i.isLt]
    simp

/-- Two rows of one length are combined as lists are. -/
theorem zipWith?_row {δ : Type} (f : β → γ → δ) (xs : List β) (ys : List γ) (h : ys.length = xs.length) :
    zipWith? f ⟨[xs.length], xs.toArray⟩ ⟨[ys.length], ys.toArray⟩ = some ⟨[xs.length], (xs.zipWith f ys).toArray⟩ := by
  have hjoint : joint? [xs.length] [ys.length] = some [xs.length] := by simp [joint?, jointLength?, h]
  simp only [zipWith?, List.reverse_singleton, hjoint, Option.map_some]
  rw [spread_row rfl, h, spread_row h]

/-! ## Four dimensions -/

/-- The cells of an array of four dimensions in the order they have when the two middle dimensions change places. -/
def swapMiddle (a b c d : Nat) (xs : List β) : List β :=
  (List.range a).flatMap fun i => (List.range c).flatMap fun k => (List.range b).flatMap fun j =>
    (List.range d).filterMap fun l => xs[((i * b + j) * c + k) * d + l]?

theorem swapMiddle_eq {a b c d : Nat} {xs : List β} {g : Fin a → Fin b → Fin c → Fin d → β}
    (h : ∀ i j k l, xs[((i.val * b + j.val) * c + k.val) * d + l.val]? = some (g i j k l)) :
    swapMiddle a b c d xs = (List.ofFn fun i => (List.ofFn fun k => (List.ofFn fun j => List.ofFn fun l =>
      g i j k l).flatten).flatten).flatten := by
  simp only [swapMiddle, flatMap_range]
  congr 2; funext i
  congr 2; funext k
  congr 2; funext j
  exact filterMap_range (h i j k)

end Tensor

end Tessera
