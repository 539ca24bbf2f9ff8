import Mathlib
import Tessera.Buffer
import Tessera.Proofs.Extraction
import Tessera.Proofs.Tensors
/-!
# Cells by tile

A rectangle of tiles is read in two orders, row by row and tile by tile. The cell in row `y` and column `x` stands in the tile
`y / h * cols + x / w` at the offset `y % h * w + x % w`, where `w` and `h` are the sides of a tile; both ways back and forth
lose nothing (`Tiling.blocks_bijective`). On the cells in order either way is one exchange of the two middle dimensions of
four: rows of tiles, rows in a tile, tiles in a row, columns in a tile (`Tensor.swapMiddle`). Buffers take along whatever
stands behind the first two dimensions.
-/

namespace Tessera

variable {β : Type}

/-! ## Rasters -/

namespace Raster

theorem getElem?_toList {height width : Nat} (r : Raster β height width) (y : Fin height) (x : Fin width) :
    r.toList[y.val * width + x.val]? = some (r.get y x) := by
  rw [toList, toLists_eq]
  exact flatten_ofFn_getElem? (fun y x => r.get y x) y x

/-- The cells in order, with both dimensions taken apart. -/
theorem toList_eq {a b c d : Nat} (r : Raster β (a * c) (b * d)) :
    r.toList = (List.ofFn fun i : Fin a => (List.ofFn fun k : Fin c => (List.ofFn fun j : Fin b => List.ofFn fun l : Fin d =>
      r.get ⟨i.val * c + k.val, digit_pair_lt i.isLt k.isLt⟩
        ⟨j.val * d + l.val, digit_pair_lt j.isLt l.isLt⟩).flatten).flatten).flatten := by
  rw [toList, toLists_eq]
  simp only [List.ofFn_mul (m := a), List.ofFn_mul (m := b)]
  rw [List.flatten_flatten, List.map_ofFn]
  rfl

end Raster

/-! ## Tiles in rows and columns -/

namespace Tiling

theorem blocks_unblocks {height width : Nat} (t : Tiling height width) (r : Raster β t.tiles t.area) :
    t.blocks (t.unblocks r) = r := by
  ext b o
  simp [unblocks, blocks]

theorem get_blocks {height width : Nat} (t : Tiling height width) (r : Raster β height width) (y : Fin height)
    (x : Fin width) : (t.blocks r).get (t.blockIndex y x) (t.blockOffset y x) = r.get y x := by
  simp [blocks]

/-- The tiling of `rows` by `cols` tiles of given sides. -/
abbrev grid (rows cols : Nat) {tw th : Nat} (htw : 0 < tw) (hth : 0 < th) : Tiling (rows * th) (cols * tw) :=
  ⟨tw, th, rows, cols, htw, hth, rfl, rfl⟩

section Grid

variable {rows cols tw th : Nat} (htw : 0 < tw) (hth : 0 < th)

theorem blockIndex_grid (i : Fin rows) (j : Fin th) (k : Fin cols) (l : Fin tw) :
    (grid rows cols htw hth).blockIndex ⟨i.val * th + j.val, digit_pair_lt i.isLt j.isLt⟩
      ⟨k.val * tw + l.val, digit_pair_lt k.isLt l.isLt⟩ = ⟨i.val * cols + k.val, digit_pair_lt i.isLt k.isLt⟩ := by
  apply Fin.ext
  simp only [blockIndex, grid]
  rw [digit_pair_div j.isLt, digit_pair_div l.isLt]

theorem blockOffset_grid (i : Fin rows) (j : Fin th) (k : Fin cols) (l : Fin tw) :
    (grid rows cols htw hth).blockOffset ⟨i.val * th + j.val, digit_pair_lt i.isLt j.isLt⟩
      ⟨k.val * tw + l.val, digit_pair_lt k.isLt l.isLt⟩ = ⟨j.val * tw + l.val, digit_pair_lt j.isLt l.isLt⟩ := by
  apply Fin.ext
  simp only [blockOffset, grid]
  rw [digit_pair_mod j.isLt, digit_pair_mod l.isLt]

/-- Tile by tile the cells are an array of four dimensions with the middle ones exchanged. -/
theorem toList_blocks (r : Raster β (rows * th) (cols * tw)) :
    ((grid rows cols htw hth).blocks r).toList = Tensor.swapMiddle rows th cols tw r.toList := by
  rw [Tensor.swapMiddle_eq (g := fun i j k l => r.get ⟨i.val * th + j.val, digit_pair_lt i.isLt j.isLt⟩
    ⟨k.val * tw + l.val, digit_pair_lt k.isLt l.isLt⟩)]
  · refine (Raster.toList_eq (a := rows) (b := th) (c := cols) (d := tw) _).trans ?_
    congr 2; funext i
    congr 2; funext k
    congr 2; funext j
    congr 1; funext l
    rw [← blockIndex_grid htw hth i j k l, ← blockOffset_grid htw hth i j k l, blocks, Raster.get_ofFn, sourceRow_block,
      sourceColumn_block]
  · intro i j k l
    rw [← Raster.getElem?_toList]
    congr 1
    ring

/-- Row by row again they are that array with the middle dimensions exchanged once more. -/
theorem toList_unblocks (r : Raster β (rows * cols) (th * tw)) :
    ((grid rows cols htw hth).unblocks r).toList = Tensor.swapMiddle rows cols th tw r.toList := by
  rw [Tensor.swapMiddle_eq (g := fun i j k l => r.get ⟨i.val * cols + j.val, digit_pair_lt i.isLt j.isLt⟩
    ⟨k.val * tw + l.val, digit_pair_lt k.isLt l.isLt⟩)]
  · refine (Raster.toList_eq (a := rows) (b := cols) (c := th) (d := tw) _).trans ?_
    congr 2; funext i
    congr 2; funext k
    congr 2; funext j
    congr 1; funext l
    rw [unblocks, Raster.get_ofFn, blockIndex_grid htw hth i k j l, blockOffset_grid htw hth i k j l]
  · intro i j k l
    rw [← Raster.getElem?_toList]
    congr 1
    ring

end Grid

end Tiling

/-! ## Buffers -/

namespace Buffer

theorem toList_cells (b : Buffer) (height width depth : Nat) :
    (b.cells height width depth).toList.flatten = List.ofFn fun n : Fin (height * width * depth) => b.byteAt n := by
  have hcell : ∀ y x, (b.cells height width depth).get y x =
      List.ofFn fun k : Fin depth => b.byteAt ((y.val * width + x.val) * depth + k) := by
    intro y x
    rw [cells, Raster.get_ofFn, ← List.map_coe_finRange_eq_range, List.map_map, List.ofFn_eq_map]
    rfl
  rw [Raster.toList, Raster.toLists_eq, flatten_ofFn]
  simp only [hcell]
  rw [flatten_ofFn]
  congr 1
  funext n
  simp only [Fin.divNat, Fin.modNat, Nat.div_add_mod']

/-- The bytes of a raster of cells, by row, column and place in the cell. -/
theorem byteAt_ofCells {height width depth : Nat} (r : Raster (List UInt8) height width) (tail : List Nat)
    (hdepth : ∀ y x, (r.get y x).length = depth) (y : Fin height) (x : Fin width) (k : Fin depth) :
    (ofCells r tail).byteAt ((y.val * width + x.val) * depth + k) = (r.get y x).getD k 0 := by
  have hcell : ∀ y x, r.get y x = List.ofFn fun k : Fin depth => (r.get y x).getD k 0 := by
    intro y x
    apply List.ext_getElem
    · simp [hdepth]
    · intro i h1 h2
      simp [h1]
  have hflat : r.toList.flatten = (List.ofFn fun n : Fin (height * width) =>
      List.ofFn fun k : Fin depth => (r.get n.divNat n.modNat).getD k 0).flatten := by
    rw [Raster.toList, Raster.toLists_eq, flatten_ofFn]
    congr 2
    funext n
    exact hcell _ _
  have hlt := digit_pair_lt y.isLt x.isLt
  have hget := flatten_ofFn_getElem? (fun n : Fin (height * width) => fun k : Fin depth =>
    (r.get n.divNat n.modNat).getD k 0) ⟨y.val * width + x.val, hlt⟩ k
  rw [byteAt, ofCells, List.getElem?_toArray, hflat, hget, divNat_pair, modNat_pair]
  rfl

theorem data_toList_eq {b : Buffer} {n : Nat} (hsize : b.data.size = n) :
    b.data.toList = List.ofFn fun i : Fin n => b.byteAt i := by
  apply List.ext_getElem
  · simp [hsize]
  · intro i h1 h2
    have hi : i < b.data.size := by simpa using h1
    simp [byteAt, hi]

/-- A buffer is made of its cells. -/
theorem ofCells_cells {b : Buffer} {height width : Nat} {tail : List Nat} (hbyte : b.isByte = true)
    (hshape : b.shape = height :: width :: tail) (hsize : b.data.size = height * width * Tensor.cells tail) :
    ofCells (b.cells height width (Tensor.cells tail)) tail = b := by
  have hdata : (ofCells (b.cells height width (Tensor.cells tail)) tail).data = b.data := by
    rw [ofCells, toList_cells, ← data_toList_eq hsize]
  obtain ⟨isByte, shape, data⟩ := b
  subst hbyte hshape
  exact congrArg (Buffer.mk true (height :: width :: tail)) hdata

variable {rows cols tw th : Nat} (htw : 0 < tw) (hth : 0 < th) {b : Buffer} {tail : List Nat}

include htw hth

/-- Without elements the cells tile by tile have none either. -/
theorem tileWise_hollow (hbyte : b.isByte = true) (hshape : b.shape = rows * th :: cols * tw :: tail)
    (hsize : b.data.size = Tensor.cells b.shape) (hzero : Tensor.cells b.shape = 0) :
    b.tileWise tw th = .ok (hollow (rows * cols :: th * tw :: tail), b) := by
  have hrows : rows * th / th = rows := Nat.mul_div_cancel _ hth
  have hcols : cols * tw / tw = cols := Nat.mul_div_cancel _ htw
  have hparts : Tensor.cells (rows :: th :: cols :: tw :: tail) = 0 := by
    rw [hshape] at hzero
    simpa [Tensor.cells, mul_assoc] using hzero
  have hself : b = hollow (rows * th :: cols * tw :: tail) := by
    obtain ⟨isByte, shape, data⟩ := b
    subst hbyte hshape
    have hempty : data = #[] := Array.eq_empty_of_size_eq_zero (hsize.trans hzero)
    rw [hempty]
    rfl
  rw [tileWise, hshape]
  dsimp only
  rw [if_neg (by omega), if_pos ⟨by omega, by omega, by rw [← hshape]; exact hzero⟩]
  simp only [Int.toNat_natCast, hrows, hcols]
  rw [if_pos hparts, ← hself]
  rfl

/-- With elements they are those of the grid. -/
theorem tileWise_grid (hbyte : b.isByte = true) (hshape : b.shape = rows * th :: cols * tw :: tail)
    (hsize : b.data.size = Tensor.cells b.shape) (hpos : Tensor.cells b.shape ≠ 0) :
    b.tileWise tw th = .ok (ofCells ((Tiling.grid rows cols htw hth).blocks
      (b.cells (rows * th) (cols * tw) (Tensor.cells tail))) tail, b) := by
  have hcells : b.data.size = rows * th * (cols * tw) * Tensor.cells tail := by
    rw [hsize, hshape]
    simp [Tensor.cells, mul_assoc]
  rw [tileWise, hshape]
  dsimp only
  rw [if_neg (by omega), if_neg (by rw [← hshape]; tauto)]
  simp only [Int.toNat_natCast]
  rw [(Tiling.grid rows cols htw hth).ofSizes?_self]
  dsimp only
  rw [Tiling.unblocks_blocks, ofCells_cells hbyte hshape hcells]
  rfl

/-- A buffer comes back from its tiles, and each of its bytes stands in the tile and at the offset of its cell. -/
theorem tileWiseGiven_eq_ok (hbyte : b.isByte = true) (hshape : b.shape = rows * th :: cols * tw :: tail)
    (hsize : b.data.size = Tensor.cells b.shape) :
    ∃ blocks : Buffer, b.tileWiseGiven (.int tw) (.int th) = .ok (blocks, b) ∧ blocks.isByte = true ∧
      blocks.shape = rows * cols :: th * tw :: tail ∧
      ∀ y < rows * th, ∀ x < cols * tw, ∀ k < Tensor.cells tail,
        blocks.byteAt (((y / th * cols + x / tw) * (th * tw) + (y % th * tw + x % tw)) * Tensor.cells tail + k) =
          b.byteAt ((y * (cols * tw) + x) * Tensor.cells tail + k) := by
  have hgiven : b.tileWiseGiven (.int tw) (.int th) = b.tileWise tw th := by
    have hne : th ≠ 0 := by omega
    simp [tileWiseGiven, hshape, sideOf, Number.ofValue, hne, bind, Except.bind, pure, Except.pure]
  rw [hgiven]
  by_cases hzero : Tensor.cells b.shape = 0
  · refine ⟨_, tileWise_hollow htw hth hbyte hshape hsize hzero, rfl, rfl, ?_⟩
    intro y hy x hx k hk
    have hpos : 0 < rows * th * (cols * tw * Tensor.cells tail) :=
      Nat.mul_pos (Nat.zero_lt_of_lt hy) (Nat.mul_pos (Nat.zero_lt_of_lt hx) (Nat.zero_lt_of_lt hk))
    rw [hshape] at hzero
    exact absurd hzero hpos.ne'
  · refine ⟨_, tileWise_grid htw hth hbyte hshape hsize hzero, rfl, rfl, ?_⟩
    intro y hy x hx k hk
    have hget := (Tiling.grid rows cols htw hth).get_blocks (b.cells (rows * th) (cols * tw) (Tensor.cells tail)) ⟨y, hy⟩ ⟨x, hx⟩
    have hbytes := byteAt_ofCells ((Tiling.grid rows cols htw hth).blocks
      (b.cells (rows * th) (cols * tw) (Tensor.cells tail))) tail (by simp [Tiling.blocks, cells])
      ((Tiling.grid rows cols htw hth).blockIndex ⟨y, hy⟩ ⟨x, hx⟩)
      ((Tiling.grid rows cols htw hth).blockOffset ⟨y, hy⟩ ⟨x, hx⟩) ⟨k, hk⟩
    rw [hget] at hbytes
    refine hbytes.trans ?_
    simp [cells, hk]

end Buffer

namespace Tiling

/-- **Cells by tile.** Whatever the sides of the tiles and their number in each direction, a rectangle of cells of any kind has
the cell in row `y` and column `x` in the tile `y / th * cols + x / tw` at the offset `y % th * tw + x % tw`. Putting the
cells back gives the rectangle, and cutting up what was put together gives the tiles. Both ways exchange the middle ones of
four dimensions. Byte buffers with further dimensions keep each cell whole. -/
theorem blocks_bijective {tw th : Nat} (htw : 1 ≤ tw) (hth : 1 ≤ th) (rows cols : Nat) :
    ofSizes? (rows * th) (cols * tw) tw th = some (grid rows cols htw hth) ∧
    (∀ (β : Type) (r : Raster β (rows * th) (cols * tw)),
      (∀ y x, ∃ b o, b.val = y.val / th * cols + x.val / tw ∧ o.val = y.val % th * tw + x.val % tw ∧
        ((grid rows cols htw hth).blocks r).get b o = r.get y x) ∧
      ((grid rows cols htw hth).blocks r).toList = Tensor.swapMiddle rows th cols tw r.toList ∧
      (grid rows cols htw hth).unblocks ((grid rows cols htw hth).blocks r) = r) ∧
    (∀ (β : Type) (s : Raster β (rows * cols) (th * tw)),
      ((grid rows cols htw hth).unblocks s).toList = Tensor.swapMiddle rows cols th tw s.toList ∧
      (grid rows cols htw hth).blocks ((grid rows cols htw hth).unblocks s) = s) ∧
    ∀ (b : Buffer) (tail : List Nat), b.isByte = true → b.shape = rows * th :: cols * tw :: tail →
      b.data.size = Tensor.cells b.shape →
      ∃ blocks : Buffer, b.tileWiseGiven (.int tw) (.int th) = .ok (blocks, b) ∧ blocks.isByte = true ∧
        blocks.shape = rows * cols :: th * tw :: tail ∧
        ∀ y < rows * th, ∀ x < cols * tw, ∀ k < Tensor.cells tail,
          blocks.byteAt (((y / th * cols + x / tw) * (th * tw) + (y % th * tw + x % tw)) * Tensor.cells tail + k) =
            b.byteAt ((y * (cols * tw) + x) * Tensor.cells tail + k) := by
  refine ⟨(grid rows cols htw hth).ofSizes?_self, fun β r => ⟨fun y x => ?_, ?_, ?_⟩, fun β s => ⟨?_, ?_⟩,
    fun b tail hbyte hshape hsize => ?_⟩
  · exact ⟨(grid rows cols htw hth).blockIndex y x, (grid rows cols htw hth).blockOffset y x, rfl, rfl,
      (grid rows cols htw hth).get_blocks r y x⟩
  · exact toList_blocks htw hth r
  · exact (grid rows cols htw hth).unblocks_blocks r
  · exact toList_unblocks htw hth s
  · exact (grid rows cols htw hth).blocks_unblocks s
  · exact Buffer.tileWiseGiven_eq_ok htw hth hbyte hshape hsize

/-- Two tiles of three columns and two rows side by side: the first cell of the second row is the fourth of the first tile. -/
theorem blocks_bijective_pair :
    ∃ blocks : Buffer,
      Buffer.tileWiseGiven ⟨true, [2, 6], #[0, 1, 2, 3, 4, 5, 6, 7, 8, 9, 10, 11]⟩ (.int 3) (.int 2) =
        .ok (blocks, ⟨true, [2, 6], #[0, 1, 2, 3, 4, 5, 6, 7, 8, 9, 10, 11]⟩) ∧
      blocks.shape = [2, 6] ∧ blocks.byteAt 3 = 6 ∧ blocks.byteAt 6 = 3 := by
  obtain ⟨-, -, -, hbuffer⟩ := @blocks_bijective 3 2 (by decide) (by decide) 1 2
  obtain ⟨blocks, hok, -, hshape, hbytes⟩ :=
    hbuffer ⟨true, [2, 6], #[0, 1, 2, 3, 4, 5, 6, 7, 8, 9, 10, 11]⟩ [] rfl rfl rfl
  exact ⟨blocks, hok, hshape, hbytes 1 (by decide) 0 (by decide) 0 (by decide),
    hbytes 0 (by decide) 3 (by decide) 0 (by decide)⟩

end Tiling

end Tessera
