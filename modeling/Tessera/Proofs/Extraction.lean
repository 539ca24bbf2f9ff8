import Mathlib
import Tessera.Proofs.Exact
import Tessera.Proofs.Settings
/-!
# Views of one multiset

A tile lists the distinct colours of its rectangle with their counts, the entries are those lists end to end, and the
samples are the pixels themselves. All three say the same: a histogram spread out again is a rearrangement of the colours
that it was made of (`Histogram.perm_ofList`), the entries of a tile stand where its offset says
(`TileSet.tile_entries_iff`), and the samples of a tile are the pixels that its histogram counts
(`Canvas.samples_perm`). `Canvas.ofBuffer_views` puts them together for every buffer and mask.
-/

namespace Tessera

/-! ## Histograms -/

theorem Rgb.before_iff (c d : Rgb UInt8) : c.before d = true ↔ c.toList < d.toList := by
  simp [before, toList, List.cons_lt_cons_iff]

theorem Rgb.toList_injective {c d : Rgb UInt8} (h : c.toList = d.toList) : c = d := by
  cases c
  cases d
  simpa [toList] using h

/-- Of two colours one comes first. -/
theorem Rgb.lt_of_not_before {c d : Rgb UInt8} (hne : c ≠ d) (h : ¬ c.before d = true) : d.toList < c.toList := by
  rw [before_iff] at h
  exact Std.lt_of_le_of_ne (Std.not_lt.1 h) fun heq => hne (toList_injective heq).symm

namespace Histogram

/-- The colours of a histogram, each as often as it is counted. -/
def expand (h : List (Rgb UInt8 × Nat)) : List (Rgb UInt8) := h.flatMap fun x => List.replicate x.2 x.1

/-- The colours stand in ascending order, and each is counted at least once. -/
structure Sorted (h : List (Rgb UInt8 × Nat)) : Prop where
  ascending : h.Pairwise fun x y => x.1.toList < y.1.toList
  positive : ∀ x ∈ h, 0 < x.2

theorem perm_insert (c : Rgb UInt8) (h : List (Rgb UInt8 × Nat)) : (expand (insert c h)).Perm (c :: expand h) := by
  induction h with
  | nil => rfl
  | cons x h ih =>
    obtain ⟨d, n⟩ := x
    rw [insert]
    split
    · rename_i hcd
      subst hcd
      simp [expand, List.replicate_succ]
    split
    · simp [expand]
    · -- the colour moves in front of the copies of a colour that comes before it
      have htail := ih.append_left (List.replicate n d)
      exact htail.trans List.perm_middle

/-- **A histogram spread out again** is a rearrangement of the colours that it was made of. -/
theorem perm_ofList (cs : List (Rgb UInt8)) : (expand (ofList cs)).Perm cs := by
  induction cs with
  | nil => rfl
  | cons c cs ih => exact (perm_insert c _).trans (ih.cons c)

/-- A new colour is the only one that an insertion adds. -/
theorem mem_insert {c : Rgb UInt8} {h : List (Rgb UInt8 × Nat)} {x : Rgb UInt8 × Nat} (hx : x ∈ insert c h) :
    x.1 = c ∨ ∃ y ∈ h, y.1 = x.1 := by
  induction h with
  | nil => simp_all [insert]
  | cons y h ih =>
    obtain ⟨d, n⟩ := y
    rw [insert] at hx
    split at hx
    · rcases List.mem_cons.1 hx with rfl | hx
      · exact Or.inr ⟨(d, n), by simp, rfl⟩
      · exact Or.inr ⟨x, by simp [hx], rfl⟩
    split at hx
    · rcases List.mem_cons.1 hx with rfl | hx
      · exact Or.inl rfl
      · exact Or.inr ⟨x, hx, rfl⟩
    · rcases List.mem_cons.1 hx with rfl | hx
      · exact Or.inr ⟨(d, n), by simp, rfl⟩
      · rcases ih hx with heq | ⟨y, hy, heq⟩
        · exact Or.inl heq
        · exact Or.inr ⟨y, by simp [hy], heq⟩

theorem Sorted.insert {h : List (Rgb UInt8 × Nat)} (hs : Sorted h) (c : Rgb UInt8) : Sorted (Histogram.insert c h) := by
  induction h with
  | nil => exact ⟨by simp [Histogram.insert], by simp [Histogram.insert]⟩
  | cons x h ih =>
    obtain ⟨d, n⟩ := x
    obtain ⟨hfirst, hrest⟩ := List.pairwise_cons.1 hs.ascending
    have hpos : ∀ x ∈ h, 0 < x.2 := fun x hx => hs.positive x (by simp [hx])
    rw [Histogram.insert]
    split
    · exact ⟨List.pairwise_cons.2 ⟨hfirst, hrest⟩, by simpa using hpos⟩
    split
    · rename_i hbefore
      have hlt := (Rgb.before_iff c d).1 hbefore
      refine ⟨List.pairwise_cons.2 ⟨?_, hs.ascending⟩, by simpa using hs.positive⟩
      intro x hx
      rcases List.mem_cons.1 hx with rfl | hx
      · exact hlt
      · exact List.lt_trans hlt (hfirst x hx)
    · rename_i hne hbefore
      have ih := ih ⟨hrest, hpos⟩
      refine ⟨List.pairwise_cons.2 ⟨?_, ih.ascending⟩, ?_⟩
      · intro x hx
        rcases mem_insert hx with heq | ⟨y, hy, heq⟩
        · exact heq ▸ Rgb.lt_of_not_before hne hbefore
        · exact heq ▸ hfirst y hy
      · intro x hx
        rcases List.mem_cons.1 hx with rfl | hx
        · exact hs.positive (d, n) (by simp)
        · exact ih.positive x hx

theorem sorted_ofList (cs : List (Rgb UInt8)) : Sorted (ofList cs) := by
  induction cs with
  | nil => exact ⟨List.Pairwise.nil, by simp [ofList]⟩
  | cons c cs ih => exact ih.insert c

theorem Sorted.nodup {h : List (Rgb UInt8 × Nat)} (hs : Sorted h) : (h.map Prod.fst).Nodup := by
  rw [List.Nodup, List.pairwise_map]
  refine hs.ascending.imp ?_
  intro x y hlt heq
  rw [heq] at hlt
  exact List.lt_irrefl _ hlt

theorem mem_expand {h : List (Rgb UInt8 × Nat)} {c : Rgb UInt8} (hs : Sorted h) : c ∈ expand h ↔ c ∈ h.map Prod.fst := by
  simp only [expand, List.mem_flatMap, List.mem_replicate, List.mem_map]
  constructor
  · rintro ⟨x, hx, -, rfl⟩
    exact ⟨x, hx, rfl⟩
  · rintro ⟨x, hx, rfl⟩
    exact ⟨x, hx, Nat.ne_of_gt (hs.positive x hx), rfl⟩

theorem count_expand {h : List (Rgb UInt8 × Nat)} {x : Rgb UInt8 × Nat} (hs : Sorted h) (hx : x ∈ h) :
    (expand h).count x.1 = x.2 := by
  have hnodup := hs.nodup
  clear hs
  induction h with
  | nil => cases hx
  | cons y h ih =>
    obtain ⟨hnew, hnodup⟩ := List.nodup_cons.1 hnodup
    have hsplit : expand (y :: h) = List.replicate y.2 y.1 ++ expand h := rfl
    rw [hsplit, List.count_append]
    rcases List.mem_cons.1 hx with rfl | hx
    · have hrest : (expand h).count x.1 = 0 := by
        rw [List.count_eq_zero]
        intro hmem
        obtain ⟨z, hz, hcopy⟩ := List.mem_flatMap.1 hmem
        exact hnew (List.mem_map.2 ⟨z, hz, (List.eq_of_mem_replicate hcopy).symm⟩)
      simp [hrest]
    · have hne : y.1 ≠ x.1 := fun heq => hnew (heq ▸ List.mem_map_of_mem hx)
      rw [ih hx hnodup, List.count_replicate, if_neg (by simpa using hne), Nat.zero_add]

/-- **The counts of a histogram** are the numbers of occurrences. -/
theorem count_of_mem_ofList {cs : List (Rgb UInt8)} {x : Rgb UInt8 × Nat} (hx : x ∈ ofList cs) :
    0 < x.2 ∧ x.2 = cs.count x.1 := by
  have hs := sorted_ofList cs
  rw [← (perm_ofList cs).count_eq, count_expand hs hx]
  exact ⟨hs.positive x hx, rfl⟩

theorem mem_colors_ofList (cs : List (Rgb UInt8)) (c : Rgb UInt8) : c ∈ (ofList cs).map Prod.fst ↔ c ∈ cs := by
  rw [← mem_expand (sorted_ofList cs)]
  exact (perm_ofList cs).mem_iff

end Histogram

/-! ## Offsets into the entries -/

namespace TileSet

variable {ts : TileSet} {t : Nat} {tile : Tile}

theorem length_tileEntries (tile : Tile) : (tileEntries tile).length = tile.histogram.length := by simp [tileEntries]

theorem length_flatMap_tileEntries (tiles : List Tile) :
    (tiles.flatMap tileEntries).length = total (tiles.map fun u => u.histogram.length) := by
  simp [List.length_flatMap, total_eq_sum, length_tileEntries]

/-- The entries before a tile, of the tile and after it. -/
theorem entries_split (h : ts.tiles[t]? = some tile) :
    ts.entries = (ts.tiles.take t).flatMap tileEntries ++ (tileEntries tile ++ (ts.tiles.drop (t + 1)).flatMap tileEntries) := by
  obtain ⟨hlt, rfl⟩ := List.getElem?_eq_some_iff.1 h
  have htiles := List.take_append_drop t ts.tiles
  rw [List.drop_eq_getElem_cons hlt] at htiles
  rw [entries]
  conv_lhs => rw [← htiles]
  rw [List.flatMap_append, List.flatMap_cons]

/-- The slice of a tile holds its entries. -/
theorem slice_entries (h : ts.tiles[t]? = some tile) :
    (ts.entries.drop (ts.entryStart t)).take tile.histogram.length = tileEntries tile := by
  rw [entries_split h, entryStart, ← length_flatMap_tileEntries, List.drop_left, ← length_tileEntries, List.take_left]

/-- **Entries by their positions.** The entries of a tile are those from its offset on, as many as it has colours. -/
theorem tile_entries_iff (hts : ts.InOrder) (h : ts.tiles[t]? = some tile) (i : Nat) :
    ts.entries[i]?.map Entry.tile = some t ↔
      ts.entryStart t ≤ i ∧ i < ts.entryStart t + tile.histogram.length := by
  have hstart : ts.entryStart t = ((ts.tiles.take t).flatMap tileEntries).length :=
    (length_flatMap_tileEntries _).symm
  have hindex : ∀ k u, ts.tiles[k]? = some u → ∀ e ∈ tileEntries u, e.tile = k := by
    intro k u hk e he
    rw [Fit.tile_of_mem_tileEntries he, hts k u hk]
  rw [entries_split h, hstart, ← length_tileEntries]
  by_cases hbefore : i < ((ts.tiles.take t).flatMap tileEntries).length
  · -- an entry further to the left belongs to an earlier tile
    have hne : ((ts.tiles.take t).flatMap tileEntries)[i].tile ≠ t := by
      obtain ⟨u, hu, he⟩ := List.mem_flatMap.1 (List.getElem_mem hbefore)
      obtain ⟨k, hk⟩ := List.mem_iff_getElem?.1 hu
      rw [List.getElem?_take] at hk
      split at hk
      · rw [hindex k u hk _ he]
        omega
      · cases hk
    rw [List.getElem?_append_left hbefore, List.getElem?_eq_getElem hbefore, Option.map_some, Option.some.injEq]
    exact ⟨fun heq => absurd heq hne, fun hle => absurd hle.1 (by omega)⟩
  rw [List.getElem?_append_right (by omega)]
  by_cases hwithin : i - ((ts.tiles.take t).flatMap tileEntries).length < (tileEntries tile).length
  · have heq := hindex t tile h _ (List.getElem_mem hwithin)
    rw [List.getElem?_append_left hwithin, List.getElem?_eq_getElem hwithin, Option.map_some, heq]
    exact ⟨fun _ => by omega, fun _ => rfl⟩
  · -- an entry further to the right belongs to a later tile
    rw [List.getElem?_append_right (by omega)]
    constructor
    · intro hmap
      obtain ⟨e, he, het⟩ := Option.map_eq_some_iff.1 hmap
      obtain ⟨u, hu, heu⟩ := List.mem_flatMap.1 (List.mem_of_getElem? he)
      obtain ⟨k, hk⟩ := List.mem_iff_getElem?.1 hu
      rw [List.getElem?_drop] at hk
      have hlater := hindex _ u hk e heu
      omega
    · omega

theorem totalWeight_eq_entries (ts : TileSet) : ts.totalWeight = total (ts.entries.map Entry.count) := by
  rw [totalWeight, entries, total_eq_sum, total_eq_sum, List.map_flatMap, List.flatMap, List.sum_flatten, List.map_map]
  congr 1
  refine List.map_congr_left fun tile _ => ?_
  simp [Tile.pixelCount, tileEntries, total_eq_sum, Function.comp_def]

end TileSet

/-! ## Samples -/

namespace Canvas

variable (c : Canvas)

/-- The samples of the tile with a number. -/
def samplesOf (b : Fin c.tiling.tiles) : List Sample := (TileSet.kept (c.cellsOf b)).map fun color => ⟨color, b⟩

theorem samples_eq : c.tiles.samples.toList = (List.finRange c.tiling.tiles).flatMap c.samplesOf := by
  have hblocks : (c.tiling.blocks (.ofFn fun y x => (c.work.get y x, c.reserved.get y x))).toLists =
      List.ofFn c.cellsOf := by
    simp only [Raster.toLists_eq, Tiling.blocks, Raster.get_ofFn]
    rfl
  have hnumbered : (List.ofFn c.cellsOf).zipIdx = (List.finRange c.tiling.tiles).map fun b => (c.cellsOf b, b.val) := by
    apply List.ext_getElem
    · simp
    intro b h1 h2
    simp
  simp only [tiles, TileSet.extract, TileSet.ofBlocks, hblocks, hnumbered, List.flatMap_map]
  rfl

theorem samples_of_tile (b : Fin c.tiling.tiles) :
    c.tiles.samples.toList.filter (fun s => s.tile == b.val) = c.samplesOf b := by
  have h := Fit.filter_flatMap_numbered Sample.tile c.samplesOf (List.finRange c.tiling.tiles) 0 b ?_
  · rw [samples_eq]
    simpa using h
  · intro k b' hk s hs
    obtain ⟨hlt, rfl⟩ := List.getElem?_eq_some_iff.1 hk
    obtain ⟨color, -, rfl⟩ := List.mem_map.1 hs
    simp

/-- **Samples.** Those of a tile are the colours that its histogram counts, each as often as it says. -/
theorem samples_perm (b : Fin c.tiling.tiles) :
    ((c.tiles.samples.toList.filter fun s => s.tile == b.val).map Sample.color).Perm
      (Histogram.expand (c.tileOf b).histogram) := by
  have hcolors : (c.samplesOf b).map Sample.color = TileSet.kept (c.cellsOf b) := by
    simp [samplesOf, Function.comp_def]
  rw [samples_of_tile, hcolors]
  exact (Histogram.perm_ofList _).symm

theorem totalWeight_eq_samples : c.tiles.totalWeight = c.tiles.samples.size := by
  have hcount : ∀ b, (c.tileOf b).pixelCount = (c.samplesOf b).length := by
    intro b
    rw [Tile.pixelCount, tileOf, TileSet.makeTile, Histogram.total_ofList, samplesOf, List.length_map]
  rw [← Array.length_toList, samples_eq, List.length_flatMap, TileSet.totalWeight, tiles_eq, total_eq_sum, List.map_ofFn,
    ← List.ofFn_eq_map]
  simp only [Function.comp_def, hcount]

end Canvas

/-! ## Rectangles -/

theorem countP_ofFn {β : Type} {n : Nat} (p : β → Bool) (f : Fin n → β) :
    (List.ofFn f).countP p = (Finset.univ.filter fun i => p (f i) = true).card := by
  induction n with
  | zero => simp
  | succ n ih =>
    rw [List.ofFn_succ, List.countP_cons, ih, Fin.card_filter_univ_succ]
    split <;> simp

/-- The places, by row and column, of the tile in a row and a column of tiles. -/
def rectangle (tileWidth tileHeight ty tx : Nat) : Finset (Nat × Nat) :=
  Finset.Ico (ty * tileHeight) (ty * tileHeight + tileHeight) ×ˢ Finset.Ico (tx * tileWidth) (tx * tileWidth + tileWidth)

/-- The number of places that count and have a colour. -/
def countIn (color : Nat → Nat → Rgb UInt8) (counts : Nat → Nat → Bool) (places : Finset (Nat × Nat))
    (k : Rgb UInt8) : Nat :=
  (places.filter fun q => counts q.1 q.2 = true ∧ color q.1 q.2 = k).card

/-- A canvas has given colours, and reserves the places that do not count. -/
structure Canvas.Shows (c : Canvas) (color : Nat → Nat → Rgb UInt8) (counts : Nat → Nat → Bool) : Prop where
  work : ∀ y x, c.work.get y x = color y x
  reserved : ∀ y x, c.reserved.get y x = !counts y x

namespace Canvas

variable {c : Canvas} {color : Nat → Nat → Rgb UInt8} {counts : Nat → Nat → Bool}

/-- The cells of a tile are the places of its rectangle. -/
theorem card_cells (P : Nat × Nat → Prop) [DecidablePred P] {ty tx : Nat} (b : Fin c.tiling.tiles)
    (hb : b.val = ty * c.tiling.cols + tx) (htx : tx < c.tiling.cols) :
    (Finset.univ.filter fun o => P (c.tiling.sourceRow b o, c.tiling.sourceColumn b o)).card =
      ((rectangle c.tiling.tileWidth c.tiling.tileHeight ty tx).filter P).card := by
  have hw := c.tiling.tileWidth_pos
  have hrow : ∀ o, (c.tiling.sourceRow b o).val = ty * c.tiling.tileHeight + o / c.tiling.tileWidth := by
    intro o
    show b.val / c.tiling.cols * c.tiling.tileHeight + _ = _
    rw [hb, digit_pair_div htx]
  have hcol : ∀ o, (c.tiling.sourceColumn b o).val = tx * c.tiling.tileWidth + o % c.tiling.tileWidth := by
    intro o
    show b.val % c.tiling.cols * c.tiling.tileWidth + _ = _
    rw [hb, digit_pair_mod htx]
  refine Finset.card_bij (fun o _ => ((c.tiling.sourceRow b o).val, (c.tiling.sourceColumn b o).val)) ?_ ?_ ?_
  · intro o ho
    have h1 : o.val / c.tiling.tileWidth < c.tiling.tileHeight :=
      Nat.div_lt_of_lt_mul (by rw [Nat.mul_comm]; exact o.isLt)
    have h2 := Nat.mod_lt o.val hw
    simp only [Finset.mem_filter, Finset.mem_univ, true_and] at ho
    simp only [Finset.mem_filter, rectangle, Finset.mem_product, Finset.mem_Ico]
    rw [hrow, hcol] at ho ⊢
    exact ⟨⟨⟨Nat.le_add_right _ _, Nat.add_lt_add_left h1 _⟩, Nat.le_add_right _ _, Nat.add_lt_add_left h2 _⟩, ho⟩
  · intro o _ o' _ heq
    obtain ⟨h1, h2⟩ := Prod.mk.inj heq
    have := congrArg₂ c.tiling.blockOffset (Fin.ext h1) (Fin.ext h2)
    simpa using this
  · rintro ⟨y, x⟩ hq
    simp only [Finset.mem_filter, rectangle, Finset.mem_product, Finset.mem_Ico] at hq
    obtain ⟨⟨⟨hy1, hy2⟩, hx1, hx2⟩, hP⟩ := hq
    have ho : (y - ty * c.tiling.tileHeight) * c.tiling.tileWidth + (x - tx * c.tiling.tileWidth) < c.tiling.area :=
      digit_pair_lt (by omega) (by omega)
    have heq : ((c.tiling.sourceRow b ⟨_, ho⟩).val, (c.tiling.sourceColumn b ⟨_, ho⟩).val) = (y, x) := by
      rw [hrow, hcol, digit_pair_div (by omega), digit_pair_mod (by omega)]
      simp only [Prod.mk.injEq]
      omega
    exact ⟨⟨_, ho⟩, by simpa [heq] using hP, heq⟩

theorem count_kept (h : c.Shows color counts) {ty tx : Nat} (b : Fin c.tiling.tiles)
    (hb : b.val = ty * c.tiling.cols + tx) (htx : tx < c.tiling.cols) (k : Rgb UInt8) :
    (TileSet.kept (c.cellsOf b)).count k =
      countIn color counts (rectangle c.tiling.tileWidth c.tiling.tileHeight ty tx) k := by
  rw [countIn, ← card_cells _ b hb htx, TileSet.kept, List.count, List.countP_map, List.countP_filter, cellsOf, countP_ofFn]
  congr 1
  ext o
  simp [h.work, h.reserved, and_comm]

theorem card_counts (h : c.Shows color counts) :
    c.tiles.totalWeight =
      ((Finset.range c.height ×ˢ Finset.range c.width).filter fun q => counts q.1 q.2 = true).card := by
  have hsum : (c.tiles.totalWeight : Rat) =
      (Finset.univ.filter fun q : Fin c.height × Fin c.width => counts q.1 q.2 = true).card := by
    rw [c.totalWeight_eq, sumKept, ← Fintype.sum_prod_type', ← Finset.sum_boole]
    refine Finset.sum_congr rfl ?_
    intro q _
    rw [h.reserved]
    cases counts q.1 q.2 <;> rfl
  rw [Nat.cast_inj.1 hsum]
  refine Finset.card_bij (fun q _ => (q.1.val, q.2.val)) ?_ ?_ ?_
  · intro q hq
    simpa using hq
  · rintro ⟨y, x⟩ _ ⟨y', x'⟩ _ heq
    simpa [Fin.ext_iff] using heq
  · rintro ⟨y, x⟩ hq
    simp only [Finset.mem_filter, Finset.mem_product, Finset.mem_range] at hq
    exact ⟨(⟨y, hq.1.1⟩, ⟨x, hq.1.2⟩), by simpa using hq.2, rfl⟩

end Canvas

/-! ## Canvases of buffers -/

theorem Raster.ofLists?_toLists {β : Type} {height width : Nat} (r : Raster β height width) :
    Raster.ofLists? r.toLists = some r := by
  have hshape : r.toLists.length = height ∧ ∀ row ∈ r.toLists, row.length = width := by
    refine ⟨r.length_toLists, ?_⟩
    simp [toLists]
  rw [ofLists?, dif_pos hshape, Option.some.injEq]
  ext y x
  simp [get, toLists]

namespace Tensor

theorem pieces_eq {β : Type} (width count : Nat) (xs : List β) :
    pieces width count xs = (List.range count).map fun i => (xs.drop (i * width)).take width := by
  induction count generalizing xs with
  | zero => rfl
  | succ count ih =>
    rw [pieces, ih, List.range_succ_eq_map, List.map_cons, List.map_map, Nat.zero_mul, List.drop_zero]
    simp [Function.comp_def, List.drop_drop, Nat.add_mul, Nat.add_comm]

theorem pieces_ofFn {β : Type} {height width : Nat} (f : Fin (height * width) → β) :
    pieces width height (List.ofFn f) =
      (Raster.ofFn fun (y : Fin height) (x : Fin width) =>
        f ⟨y.val * width + x.val, digit_pair_lt y.isLt x.isLt⟩).toLists := by
  rw [pieces_eq, map_drop_take, Raster.toLists_eq]
  simp only [Raster.get_ofFn]

end Tensor

namespace Tiling

variable {height width : Nat} (t : Tiling height width)

theorem unblocks_blocks {β : Type} (r : Raster β height width) : t.unblocks (t.blocks r) = r := by
  ext y x
  simp [unblocks, blocks]

theorem ofSizes?_self : ofSizes? height width t.tileWidth t.tileHeight = some t := by
  have h : 0 < t.tileWidth ∧ 0 < t.tileHeight ∧ height / t.tileHeight * t.tileHeight = height ∧
      width / t.tileWidth * t.tileWidth = width := by
    rw [← t.rows_eq, ← t.cols_eq]
    exact ⟨t.tileWidth_pos, t.tileHeight_pos, t.rows_mul, t.cols_mul⟩
  have hrows := t.rows_eq
  have hcols := t.cols_eq
  rw [ofSizes?, dif_pos h]
  cases t
  simp_all

/-- Tiles in range that divide an image pass the check of loose values. -/
theorem checkGiven_eq_ok {tileWidth tileHeight : Nat} (hw : 0 < tileWidth ∧ tileWidth ≤ 32)
    (hh : 0 < tileHeight ∧ tileHeight ≤ 32) (hpos : 0 < height ∧ 0 < width) (hdh : tileHeight ∣ height)
    (hdw : tileWidth ∣ width) :
    checkGiven (.int width) (.int height) (.int tileWidth) (.int tileHeight) = .ok () := by
  have hsize : ∀ name (n : Nat), 0 < n ∧ n ≤ 32 → checkGivenSize name (.int n) = .ok () := by
    intro name n hn
    have h : 1 ≤ (n : Int) ∧ (n : Int) ≤ maxSize := ⟨by omega, by rw [maxSize]; omega⟩
    simp only [checkGivenSize, Value.integer, bind, Except.bind, pure, Except.pure, if_pos h]
  have hfull : ∀ n : Nat, 0 < n → isEmptySide (.int n) = .ok false := by
    intro n hn
    simp [isEmptySide, Number.ofValue, Number.le, bind, Except.bind, pure, Except.pure]
    omega
  have heven : ∀ n k : Nat, 0 < k → k ∣ n → isUneven (.int n) (.int k) = .ok false := by
    intro n k hk hdvd
    have hmod : Int.fmod n k = 0 := by
      rw [Int.fmod_eq_emod_of_nonneg _ (Int.natCast_nonneg k)]
      exact Int.emod_eq_zero_of_dvd (by exact_mod_cast hdvd)
    have hk0 : ¬ (k : Int) = 0 := by omega
    simp only [isUneven, Number.ofValue, Number.mod, bind, Except.bind, pure, Except.pure, if_neg hk0, hmod]
    rfl
  simp only [checkGiven, hsize _ _ hw, hsize _ _ hh, hfull _ hpos.1, hfull _ hpos.2, heven _ _ hw.1 hdw,
    heven _ _ hh.1 hdh, either, bind, Except.bind, pure, Except.pure]
  rfl

end Tiling

/-- The colour that a buffer has in a row and a column. -/
def Buffer.colorAt (b : Buffer) (width channels y x : Nat) : Rgb UInt8 :=
  let i := (y * width + x) * channels
  ⟨b.byteAt i, b.byteAt (i + 1), b.byteAt (i + 2)⟩

/-- Whether a mask, where there is one, lets the place in a row and a column count. -/
def Tensor.counts (mask : Option (Tensor UInt8)) (width y x : Nat) : Bool :=
  mask.all fun m => m.data[y * width + x]?.getD 0 == 0

namespace Canvas

/-- A mask of the size of the image reserves the cells where it is not zero. -/
theorem maskOf_eq_ok {height width : Nat} (t : Tiling height width) {m : Tensor UInt8} (hpos : 0 < height ∧ 0 < width)
    (hshape : m.shape = [height, width]) (hsize : m.data.size = height * width) :
    ∃ r, maskOf t m = .ok r ∧ ∀ y x, r.get y x = !Tensor.counts (some m) width y x := by
  let r : Raster Bool height width := .ofFn fun y x => m.data[y.val * width + x.val]?.getD 0 != 0
  have hlist : m.data.toList.map (· != 0) =
      List.ofFn fun k : Fin (height * width) => m.data[k.val]?.getD 0 != 0 := by
    apply List.ext_getElem
    · simp [hsize]
    intro k h1 h2
    have hk : k < m.data.size := by simpa using h1
    simp [Array.getElem?_eq_getElem hk]
  have hpieces : Tensor.pieces width height (m.data.toList.map (· != 0)) = r.toLists := by
    rw [hlist, Tensor.pieces_ofFn]
  have hcells : Tensor.cells [height, width] ≠ 0 := by
    simp only [Tensor.cells, List.foldr_cons, List.foldr_nil, Nat.mul_one]
    exact Nat.ne_of_gt (Nat.mul_pos hpos.1 hpos.2)
  have hdivides : ¬ (height % t.tileHeight ≠ 0 ∨ width % t.tileWidth ≠ 0) := by
    have h1 := Nat.mod_eq_zero_of_dvd (Dvd.intro_left t.rows t.rows_mul)
    have h2 := Nat.mod_eq_zero_of_dvd (Dvd.intro_left t.cols t.cols_mul)
    simp [h1, h2]
  refine ⟨r, ?_, ?_⟩
  · rw [maskOf, hshape]
    dsimp only
    rw [if_neg hcells, if_neg hdivides, if_pos List.isEmpty_nil, hpieces, TileSet.maskOf, r.ofLists?_toLists,
      t.ofSizes?_self]
    dsimp only
    rw [(t.blocks r).ofLists?_toLists]
    dsimp only
    rw [t.unblocks_blocks]
    rfl
  · intro y x
    simp [r, Tensor.counts, bne]

/-- A buffer with at least three channels makes a canvas of its colours. -/
theorem ofBuffer_eq_ok {b : Buffer} {mask : Option (Tensor UInt8)} {height width channels tileWidth tileHeight : Nat}
    (hshape : b.shape = [height, width, channels]) (hchannels : 3 ≤ channels) (hw : 0 < tileWidth ∧ tileWidth ≤ 32)
    (hh : 0 < tileHeight ∧ tileHeight ≤ 32) (hpos : 0 < height ∧ 0 < width) (hdh : tileHeight ∣ height)
    (hdw : tileWidth ∣ width) (hmask : ∀ m ∈ mask, m.shape = [height, width] ∧ m.data.size = height * width) :
    ∃ c, ofBuffer b (.int tileWidth) (.int tileHeight) mask = .ok c ∧ c.height = height ∧ c.width = width ∧
      c.tiling.tileWidth = tileWidth ∧ c.tiling.tileHeight = tileHeight ∧
      c.Shows (b.colorAt width channels) (Tensor.counts mask width) := by
  obtain ⟨t, ht, htw, hth⟩ := Tiling.make_eq_ok hw hh hpos hdh hdw
  have hwork : colorsOf b height width = .ok ((b.pixels height width channels).map Pixel.color) := by
    rw [colorsOf, hshape]
    dsimp only
    rw [if_neg (by omega)]
    rfl
  have hcolors : ∀ y x, ((b.pixels height width channels).map Pixel.color).get y x = b.colorAt width channels y x := by
    intro y x
    simp [Buffer.pixels, Buffer.colorAt]
  have hcheck := Tiling.checkGiven_eq_ok hw hh hpos hdh hdw
  cases mask with
  | none =>
    refine ⟨⟨height, width, t, (b.pixels height width channels).map Pixel.color, .ofFn fun _ _ => false⟩, ?_, rfl, rfl,
      htw, hth, hcolors, ?_⟩
    · rw [ofBuffer, hshape]
      simp [hcheck, wholeSide, ht, hwork, bind, Except.bind, pure, Except.pure]
    · intro y x
      simp [Tensor.counts]
  | some m =>
    obtain ⟨r, hr, hreserved⟩ := maskOf_eq_ok t hpos (hmask m rfl).1 (hmask m rfl).2
    refine ⟨⟨height, width, t, (b.pixels height width channels).map Pixel.color, r⟩, ?_, rfl, rfl, htw, hth,
      hcolors, hreserved⟩
    rw [ofBuffer, hshape]
    simp [hcheck, wholeSide, ht, hwork, hr, bind, Except.bind, pure, Except.pure]

end Canvas

/-! ## All views -/

/-- The tiles of an image of `height` by `width` places, with the flat views of them. -/
structure TileSet.Views (ts : TileSet) (height width tileWidth tileHeight : Nat) (color : Nat → Nat → Rgb UInt8)
    (counts : Nat → Nat → Bool) : Prop where
  rows : ts.rows * tileHeight = height
  cols : ts.cols * tileWidth = width
  length : ts.tiles.length = ts.rows * ts.cols
  covers : ∀ ty tx, ty < ts.rows → tx < ts.cols → ∃ tile, ts.tiles[ty * ts.cols + tx]? = some tile ∧
    tile.index = ty * ts.cols + tx ∧
    tile.bounds = [tx * tileWidth, ty * tileHeight, tx * tileWidth + tileWidth, ty * tileHeight + tileHeight] ∧
    tile.colors.Nodup ∧ tile.colors.Pairwise (fun c d => c.toList < d.toList) ∧
    (∀ c n, (c, n) ∈ tile.histogram →
      0 < n ∧ n = countIn color counts (rectangle tileWidth tileHeight ty tx) c) ∧
    ∀ q ∈ rectangle tileWidth tileHeight ty tx, counts q.1 q.2 = true → color q.1 q.2 ∈ tile.colors
  slice : ∀ t tile, ts.tiles[t]? = some tile →
    ((ts.entries.drop (ts.entryStart t)).take tile.histogram.length).map (fun e => (e.color, e.count)) = tile.histogram
  positions : ∀ t tile, ts.tiles[t]? = some tile → ∀ i,
    ts.entries[i]?.map Entry.tile = some t ↔ ts.entryStart t ≤ i ∧ i < ts.entryStart t + tile.histogram.length
  samples : ∀ t tile, ts.tiles[t]? = some tile →
    ((ts.samples.toList.filter fun s => s.tile == t).map Sample.color).Perm (Histogram.expand tile.histogram)
  weight : ts.totalWeight = total (ts.entries.map Entry.count) ∧ ts.totalWeight = ts.samples.size ∧
    ts.samples.size = ((Finset.range height ×ˢ Finset.range width).filter fun q => counts q.1 q.2 = true).card

namespace Canvas

variable {c : Canvas} {color : Nat → Nat → Rgb UInt8} {counts : Nat → Nat → Bool}

theorem tiles_getElem? (b : Fin c.tiling.tiles) : c.tiles.tiles[b.val]? = some (c.tileOf b) := by
  rw [tiles_eq, List.getElem?_ofFn, dif_pos b.isLt]

theorem exists_tileOf {t : Nat} {tile : Tile} (h : c.tiles.tiles[t]? = some tile) :
    ∃ b : Fin c.tiling.tiles, b.val = t ∧ c.tileOf b = tile := by
  rw [tiles_eq, List.getElem?_ofFn] at h
  split at h
  · rename_i hlt
    exact ⟨⟨t, hlt⟩, rfl, Option.some.inj h⟩
  · cases h

/-- A tile counts the colours of its rectangle. -/
theorem tileOf_covers (h : c.Shows color counts) {ty tx : Nat} (b : Fin c.tiling.tiles)
    (hb : b.val = ty * c.tiling.cols + tx) (htx : tx < c.tiling.cols) :
    (∀ k n, (k, n) ∈ (c.tileOf b).histogram →
      0 < n ∧ n = countIn color counts (rectangle c.tiling.tileWidth c.tiling.tileHeight ty tx) k) ∧
    ∀ q ∈ rectangle c.tiling.tileWidth c.tiling.tileHeight ty tx,
      counts q.1 q.2 = true → color q.1 q.2 ∈ (c.tileOf b).colors := by
  constructor
  · intro k n hmem
    rw [← count_kept h b hb htx]
    exact Histogram.count_of_mem_ofList hmem
  · intro q hq hcounts
    have hpos : 0 < countIn color counts (rectangle c.tiling.tileWidth c.tiling.tileHeight ty tx) (color q.1 q.2) :=
      Finset.card_pos.2 ⟨q, Finset.mem_filter.2 ⟨hq, hcounts, rfl⟩⟩
    rw [← count_kept h b hb htx] at hpos
    exact (Histogram.mem_colors_ofList _ _).2 (List.count_pos_iff.1 hpos)

/-- **The tiles of a canvas** are consistent views of its pixels that count. -/
theorem tiles_views (h : c.Shows color counts) :
    c.tiles.Views c.height c.width c.tiling.tileWidth c.tiling.tileHeight color counts where
  rows := c.tiling.rows_mul
  cols := c.tiling.cols_mul
  length := c.length_tiles
  covers := by
    intro ty tx hty htx
    let b : Fin c.tiling.tiles := ⟨ty * c.tiling.cols + tx, digit_pair_lt hty htx⟩
    have hsorted : Histogram.Sorted (c.tileOf b).histogram := Histogram.sorted_ofList _
    refine ⟨c.tileOf b, c.tiles_getElem? b, rfl, ?_, hsorted.nodup, ?_, tileOf_covers h b rfl htx⟩
    · have hx : b.val % c.tiling.cols = tx := digit_pair_mod htx
      have hy : b.val / c.tiling.cols = ty := digit_pair_div htx
      simp only [Tile.bounds, tileOf, TileSet.makeTile, hx, hy]
    · rw [Tile.colors, List.pairwise_map]
      exact hsorted.ascending
  slice := by
    intro t tile ht
    rw [TileSet.slice_entries ht]
    simp [TileSet.tileEntries, Function.comp_def]
  positions t tile ht i := TileSet.tile_entries_iff c.tiles_inOrder ht i
  samples := by
    intro t tile ht
    obtain ⟨b, rfl, rfl⟩ := exists_tileOf ht
    exact c.samples_perm b
  weight := by
    refine ⟨TileSet.totalWeight_eq_entries _, c.totalWeight_eq_samples, ?_⟩
    rw [← c.totalWeight_eq_samples]
    exact card_counts h

/-- **Views of one multiset.** A buffer with at least three channels whose sides are multiples of the tile size is cut
into tiles, with a mask of its size or without: the tiles cover its rectangles, and tiles, entries and samples say the
same of the pixels that count. -/
theorem ofBuffer_views (b : Buffer) (mask : Option (Tensor UInt8)) {height width channels tileWidth tileHeight : Nat}
    (hshape : b.shape = [height, width, channels]) (hchannels : 3 ≤ channels) (hw : 0 < tileWidth ∧ tileWidth ≤ 32)
    (hh : 0 < tileHeight ∧ tileHeight ≤ 32) (hpos : 0 < height ∧ 0 < width) (hdh : tileHeight ∣ height)
    (hdw : tileWidth ∣ width) (hmask : ∀ m ∈ mask, m.shape = [height, width] ∧ m.data.size = height * width) :
    ∃ c, ofBuffer b (.int tileWidth) (.int tileHeight) mask = .ok c ∧
      c.tiles.Views height width tileWidth tileHeight (b.colorAt width channels) (Tensor.counts mask width) := by
  obtain ⟨c, hc, rfl, rfl, rfl, rfl, hshows⟩ := ofBuffer_eq_ok hshape hchannels hw hh hpos hdh hdw hmask
  exact ⟨c, hc, tiles_views hshows⟩

end Canvas

/-- Three pixels in each of two rows. -/
def Buffer.striped : Buffer := ⟨true, [2, 3, 3], #[9, 9, 9, 1, 1, 1, 5, 0, 2, 7, 7, 7, 2, 2, 2, 5, 0, 2]⟩

/-- The middle column is reserved, so the tile in the middle has no colours. -/
theorem Canvas.ofBuffer_views_striped :
    ∃ c, Canvas.ofBuffer Buffer.striped (.int (1 : Nat)) (.int (2 : Nat)) (some ⟨[2, 3], #[0, 1, 0, 0, 255, 0]⟩) = .ok c ∧
      c.tiles.Views 2 3 1 2 (Buffer.striped.colorAt 3 3) (Tensor.counts (some ⟨[2, 3], #[0, 1, 0, 0, 255, 0]⟩) 3) :=
  Canvas.ofBuffer_views Buffer.striped (some ⟨[2, 3], #[0, 1, 0, 0, 255, 0]⟩) rfl (by decide) (by decide) (by decide)
    (by decide) (by decide) (by decide) (by simp)

end Tessera
