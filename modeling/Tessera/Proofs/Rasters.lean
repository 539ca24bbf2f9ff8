import Mathlib
import Tessera.Tiling
/-!
# Rasters as lists, and tilings as rearrangements

A raster read row by row is the list of the lists of its cells, and a flat list of equal rows has the cell `(i, j)` at
position `i * n + j`. The two ways of naming a cell, by row and column and by tile and offset, translate into each other
(`Tiling.cells`), so what is said of all cells tile by tile is said of all cells of the image.
-/

namespace Tessera

variable {β γ δ : Type}

/-! ## Equal rows, end to end -/

theorem digit_pair_div {n i j : Nat} (hj : j < n) : (i * n + j) / n = i := by
  rw [Nat.mul_comm, Nat.mul_add_div (by omega), Nat.div_eq_of_lt hj, Nat.add_zero]

theorem digit_pair_mod {n i j : Nat} (hj : j < n) : (i * n + j) % n = j := by
  rw [Nat.mul_comm, Nat.mul_add_mod, Nat.mod_eq_of_lt hj]

theorem divNat_pair {m n : Nat} (i : Fin m) (j : Fin n) (h : i.val * n + j.val < m * n) :
    Fin.divNat (⟨i.val * n + j.val, h⟩ : Fin (m * n)) = i :=
  Fin.ext (digit_pair_div j.isLt)

theorem modNat_pair {m n : Nat} (i : Fin m) (j : Fin n) (h : i.val * n + j.val < m * n) :
    Fin.modNat (⟨i.val * n + j.val, h⟩ : Fin (m * n)) = j :=
  Fin.ext (digit_pair_mod j.isLt)

/-- Rows of one length end to end, as one list. -/
theorem flatten_ofFn {m n : Nat} (f : Fin m → Fin n → β) :
    (List.ofFn fun i => List.ofFn (f i)).flatten = List.ofFn fun k : Fin (m * n) => f k.divNat k.modNat := by
  rw [List.ofFn_mul]
  simp only [divNat_pair, modNat_pair]

/-- The cell `(i, j)` of rows of one length stands at position `i * n + j`. -/
theorem flatten_ofFn_getElem? {m n : Nat} (f : Fin m → Fin n → β) (i : Fin m) (j : Fin n) :
    (List.ofFn fun i => List.ofFn (f i)).flatten[i.val * n + j.val]? = some (f i j) := by
  have h := digit_pair_lt i.isLt j.isLt
  rw [flatten_ofFn, List.getElem?_ofFn, dif_pos h, divNat_pair, modNat_pair]

/-- Every element of a list written `n` times. -/
theorem flatMap_replicate {m n : Nat} (f : Fin m → β) :
    (List.ofFn f).flatMap (List.replicate n) = List.ofFn fun k : Fin (m * n) => f k.divNat := by
  have := flatten_ofFn fun i (_ : Fin n) => f i
  simp only [List.ofFn_const] at this
  rw [List.flatMap, List.map_ofFn]
  exact this

/-- A list cut into rows of one length. -/
theorem map_drop_take {m n : Nat} (f : Fin (m * n) → β) :
    ((List.range m).map fun i => ((List.ofFn f).drop (i * n)).take n) =
      List.ofFn fun i : Fin m => List.ofFn fun j : Fin n => f ⟨i.val * n + j.val, digit_pair_lt i.isLt j.isLt⟩ := by
  apply List.ext_getElem
  · simp
  intro i h1 h2
  have hi : i < m := by simpa using h2
  have hrow : i * n + n ≤ m * n := by
    calc i * n + n = (i + 1) * n := by rw [Nat.add_mul, Nat.one_mul]
      _ ≤ m * n := Nat.mul_le_mul_right n hi
  simp only [List.getElem_map, List.getElem_range, List.getElem_ofFn]
  apply List.ext_getElem
  · simp; omega
  intro j h3 h4
  simp

/-- Where every element gives a result, the results stand in the order of the elements. -/
theorem mapM_ofFn_ok {ε : Type} {n : Nat} {f : β → Except ε γ} {g : Fin n → β} {v : Fin n → γ}
    (h : ∀ i, f (g i) = .ok (v i)) : (List.ofFn g).mapM f = .ok (List.ofFn v) := by
  induction n with
  | zero => rfl
  | succ n ih => rw [List.ofFn_succ, List.mapM_cons, h, ih fun i => h i.succ, List.ofFn_succ]; rfl

/-! ## Rows of a raster -/

namespace Raster

variable {height width : Nat}

theorem toLists_eq (r : Raster β height width) :
    r.toLists = List.ofFn fun y => List.ofFn fun x => r.get y x := by
  apply List.ext_getElem
  · simp [toLists]
  intro y h1 h2
  simp only [toLists, List.getElem_map, List.getElem_ofFn]
  apply List.ext_getElem
  · simp
  intro x h3 h4
  simp [get]

theorem length_toLists (r : Raster β height width) : r.toLists.length = height := by simp [toLists]

theorem map_length_toLists (r : Raster β height width) : r.toLists.map List.length = List.replicate height width := by
  simp [toLists_eq, Function.comp_def, List.ofFn_const]

theorem zipWith_toLists (f : β → γ → δ) (r : Raster β height width) (s : Raster γ height width) :
    r.toLists.zipWith (List.zipWith f) s.toLists = (ofFn fun y x => f (r.get y x) (s.get y x)).toLists := by
  simp only [toLists_eq, get_ofFn]
  apply List.ext_getElem
  · simp
  intro y h1 h2
  simp only [List.getElem_zipWith, List.getElem_ofFn]
  apply List.ext_getElem
  · simp
  intro x h3 h4
  simp

/-- Rows that all give a result give the raster of the results. -/
theorem mapM_toLists {ε : Type} (r : Raster (Except ε β) height width) (s : Raster β height width)
    (h : ∀ y x, r.get y x = .ok (s.get y x)) : (r.toLists.mapM fun row => row.mapM id) = .ok s.toLists := by
  rw [toLists_eq, toLists_eq]
  exact mapM_ofFn_ok fun y => mapM_ofFn_ok fun x => h y x

end Raster

/-! ## Cells of a tiling -/

namespace Tiling

variable {height width : Nat} (t : Tiling height width)

theorem div_tileWidth_lt (x : Fin width) : x.val / t.tileWidth < t.cols :=
  Nat.div_lt_of_lt_mul (by rw [Nat.mul_comm, t.cols_mul]; exact x.isLt)

theorem div_tileHeight_lt (y : Fin height) : y.val / t.tileHeight < t.rows :=
  Nat.div_lt_of_lt_mul (by rw [Nat.mul_comm, t.rows_mul]; exact y.isLt)

@[simp] theorem sourceRow_block (y : Fin height) (x : Fin width) :
    t.sourceRow (t.blockIndex y x) (t.blockOffset y x) = y := by
  apply Fin.ext
  simp only [sourceRow, blockIndex, blockOffset]
  rw [digit_pair_div (t.div_tileWidth_lt x), digit_pair_div (Nat.mod_lt _ t.tileWidth_pos)]
  exact Nat.div_add_mod' _ _

@[simp] theorem sourceColumn_block (y : Fin height) (x : Fin width) :
    t.sourceColumn (t.blockIndex y x) (t.blockOffset y x) = x := by
  apply Fin.ext
  simp only [sourceColumn, blockIndex, blockOffset]
  rw [digit_pair_mod (t.div_tileWidth_lt x), digit_pair_mod (Nat.mod_lt _ t.tileWidth_pos)]
  exact Nat.div_add_mod' _ _

@[simp] theorem blockIndex_source (b : Fin t.tiles) (o : Fin t.area) :
    t.blockIndex (t.sourceRow b o) (t.sourceColumn b o) = b := by
  apply Fin.ext
  have ho : o.val / t.tileWidth < t.tileHeight := Nat.div_lt_of_lt_mul (by rw [Nat.mul_comm]; exact o.isLt)
  simp only [blockIndex, sourceRow, sourceColumn]
  rw [digit_pair_div ho, digit_pair_div (Nat.mod_lt _ t.tileWidth_pos)]
  exact Nat.div_add_mod' _ _

@[simp] theorem blockOffset_source (b : Fin t.tiles) (o : Fin t.area) :
    t.blockOffset (t.sourceRow b o) (t.sourceColumn b o) = o := by
  apply Fin.ext
  have ho : o.val / t.tileWidth < t.tileHeight := Nat.div_lt_of_lt_mul (by rw [Nat.mul_comm]; exact o.isLt)
  simp only [blockOffset, sourceRow, sourceColumn]
  rw [digit_pair_mod ho, digit_pair_mod (Nat.mod_lt _ t.tileWidth_pos)]
  exact Nat.div_add_mod' _ _

/-- A cell by its row and column is a cell by its tile and its offset there. -/
def cells : Fin height × Fin width ≃ Fin t.tiles × Fin t.area where
  toFun c := (t.blockIndex c.1 c.2, t.blockOffset c.1 c.2)
  invFun c := (t.sourceRow c.1 c.2, t.sourceColumn c.1 c.2)
  left_inv c := by simp
  right_inv c := by simp

theorem rows_eq : t.rows = height / t.tileHeight :=
  Nat.eq_div_of_mul_eq_left (Nat.ne_of_gt t.tileHeight_pos) t.rows_mul

theorem cols_eq : t.cols = width / t.tileWidth :=
  Nat.eq_div_of_mul_eq_left (Nat.ne_of_gt t.tileWidth_pos) t.cols_mul

end Tiling

end Tessera
