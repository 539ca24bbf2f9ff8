import Mathlib
import Tessera.Disk
/-!
# Pictures on disks

What is read of a picture that was written. `Disk.writePicture_ok` follows a picture through the format of its name to its
place on the disk. The format with alpha gives back what it was given, because a table's own indices survive the packing
(`Format.pack_of_lt`). The reader of the bitmap format takes some tables of greys for none: `Format.pixels_reread_bmp`
says when that shows.
-/

namespace Tessera

/-- White. -/
def Pixel.white : Pixel := ⟨⟨255, 255, 255⟩, 255⟩

/-! ## Endings of names -/

/-- Where a name has a suffix, its ending is the suffix, or it has none. -/
theorem FileName.ending_of_suffix {n : FileName} (h : n.suffix ≠ []) : n.ending = n.suffix ∨ n.ending = [] := by
  rw [suffix, split] at h ⊢
  rw [ending]
  generalize n.reverse.span (· != '.') = halves at h ⊢
  rcases halves with ⟨tail, _ | ⟨dot, head⟩⟩
  · exact absurd rfl h
  dsimp only at h ⊢
  by_cases hcut : (tail.isEmpty || head.isEmpty) = true
  · rw [if_pos hcut] at h
    exact absurd rfl h
  · rw [if_neg hcut]
    split
    · exact .inr rfl
    · exact .inl rfl

/-- The last dot of a name with an ending put behind it. -/
theorem FileName.span_append (n : FileName) {tail : List Char} (h : '.' ∉ tail) :
    (n ++ '.' :: tail).reverse.span (· != '.') = (tail.reverse, '.' :: n.reverse) := by
  rw [List.reverse_append, List.reverse_cons, List.append_assoc, List.span_eq_takeWhile_dropWhile,
    List.takeWhile_append_of_pos, List.dropWhile_append_of_pos]
  · simp
  all_goals
    intro c hc
    simp only [bne_iff_ne, ne_eq]
    rintro rfl
    exact h (List.mem_reverse.1 hc)

/-- A name with an ending put behind it has that ending, unless it consists of dots. -/
theorem FileName.ending_append (n : FileName) {tail : List Char} (h : '.' ∉ tail) :
    (n ++ '.' :: tail).ending = '.' :: tail ∨ (n ++ '.' :: tail).ending = [] := by
  rw [ending, span_append n h]
  dsimp only
  split
  · exact .inr rfl
  · exact .inl (by rw [List.reverse_reverse])

namespace Format

theorem forWriting_of_ending {n : FileName} {f : Format} (hn : Text.lower n.ending = alphaSuffix ∨ n.ending = [])
    (h : forWriting n = .ok f) : f = .png := by
  have hnames : ofName? n = some .png ∨ ofName? n = none := by
    rw [ofName?]
    rcases hn with hn | hn
    · left
      rw [hn]
      decide +kernel
    · right
      rw [hn]
      decide +kernel
  rw [forWriting] at h
  rcases hnames with hn | hn <;> rw [hn] at h <;> cases h
  rfl

/-- A name with the suffix of the format with alpha is written in that format. -/
theorem forWriting_of_hasSuffix {p : Path} {f : Format} (hp : p.hasSuffix alphaSuffix) (h : forWriting p.name = .ok f) :
    f = .png := by
  have hlower : Text.lower p.name.suffix = alphaSuffix := by simpa [Path.hasSuffix, Path.suffix] using hp
  have hne : p.name.suffix ≠ [] := by
    intro hnil
    rw [hnil] at hlower
    exact absurd hlower (by decide +kernel)
  refine forWriting_of_ending ?_ h
  rcases FileName.ending_of_suffix hne with he | he
  · exact .inl (by rw [he, hlower])
  · exact .inr he

theorem forWriting_of_withSuffix {p : Path} {f : Format} (h : forWriting (p.withSuffix alphaSuffix).name = .ok f) :
    f = .png := by
  have hname : (p.withSuffix alphaSuffix).name = p.stem ++ '.' :: "png".toList := by
    simp [Path.withSuffix, Path.child, Path.name, alphaSuffix]
  rw [hname] at h
  refine forWriting_of_ending ?_ h
  rcases FileName.ending_append p.stem (show '.' ∉ "png".toList by decide) with he | he
  · exact .inl (by rw [he]; decide +kernel)
  · exact .inr he

/-! ## Indices in few bits -/

/-- An index of a table is not changed by packing. -/
theorem pack_of_lt {colors : Nat} {k : UInt8} (h : k.toNat < colors) : pack colors k = k := by
  have hmod : ∀ m : UInt8, k.toNat < m.toNat → k % m = k := fun m hm =>
    UInt8.toNat_inj.1 (by rw [UInt8.toNat_mod, Nat.mod_eq_of_lt hm])
  unfold pack
  split
  · split
    · exact Eq.symm ‹_›
    · rename_i h2 h0
      have : k.toNat ≠ 0 := fun hk => h0 (UInt8.toNat_inj.1 hk)
      exact UInt8.toNat_inj.1 (show 1 = k.toNat by omega)
  split
  · exact hmod 4 (show k.toNat < 4 by omega)
  split
  · exact hmod 16 (show k.toNat < 16 by omega)
  · rfl

theorem packed_of_lt {indices : List (List UInt8)} {table : List Pixel}
    (h : ∀ row ∈ indices, ∀ k ∈ row, k.toNat < table.length) : packed indices table = indices := by
  rw [packed]
  refine (List.map_congr_left fun row hrow => ?_).trans (List.map_id _)
  exact (List.map_congr_left fun k hk => pack_of_lt (h row hrow k hk)).trans (List.map_id _)

/-! ## Pictures in files -/

/-- What is in a file, when the format takes the picture. -/
theorem store_ok {f : Format} {n : FileName} {p : Picture} {clear : Value} (hf : f.holds p.channels?) (hn : f.canName n)
    (hp : ¬ p.isEmpty) : f.store n p clear = f.keptClear p clear := by
  rw [store, if_neg (not_not_intro hf), if_neg (not_not_intro hn), if_neg hp]

theorem store_png_indexed (n : FileName) {indices : List (List UInt8)} {table : List Pixel}
    (hlt : ∀ row ∈ indices, ∀ k ∈ row, k.toNat < table.length) (hp : ¬ (Picture.indexed indices table).isEmpty) :
    store .png n (.indexed indices table) .null = .ok (.indexed indices table) := by
  rw [store_ok rfl rfl hp]
  show packedClear indices table .null = _
  rw [packedClear, packed_of_lt hlt]
  rfl

theorem store_png_full (n : FileName) {channels : Channels} {rows : List (List Pixel)}
    (hp : ¬ (Picture.full channels rows).isEmpty) :
    store .png n (.full channels rows) .null = .ok (.full channels rows) :=
  store_ok rfl rfl hp

theorem store_bmp_indexed (n : FileName) {indices : List (List UInt8)} {table : List Pixel}
    (h : ∀ x ∈ table, x.alpha = 255) (hp : ¬ (Picture.indexed indices table).isEmpty) :
    store .bmp n (.indexed indices table) .null = .ok (.indexed indices table) := by
  have hsolid : table.map Pixel.solid = table := by
    refine (List.map_congr_left fun x hx => ?_).trans (List.map_id _)
    rw [Pixel.solid, ← h x hx]
    rfl
  rw [store_ok rfl rfl hp]
  show Except.ok (Picture.indexed indices (table.map Pixel.solid)) = _
  rw [hsolid]

/-! ## Bytes taken for bits -/

theorem bitAt_of_zero {row : List UInt8} {x : Nat} (h : row.getD (x / 8) 0 = 0) : bitAt row x = false := by
  rw [bitAt, h]
  simp

/-- The first byte of zeros and ones has no highest bit. -/
theorem bitAt_zero {row : List UInt8} (h : ∀ k ∈ row, k.toNat < 2) : bitAt row 0 = false := by
  have hfirst : (row.getD 0 0).toNat < 2 := by
    cases row with
    | nil => exact Nat.zero_lt_two
    | cons k _ => exact h k List.mem_cons_self
  simpa [bitAt] using Nat.testBit_lt_two_pow (i := 7) (by omega : (row.getD 0 0).toNat < 2 ^ 7)

/-- Zeros and ones that stay the same when bytes are taken for bits are all zeros. The bit at `x` comes from the byte at
`x / 8`, so the first one would have to come from a one before it. -/
theorem getD_eq_zero_of_bits {row : List UInt8} (h : ∀ k ∈ row, k.toNat < 2)
    (hbits : ∀ x < row.length, bitAt row x = decide (row.getD x 0 ≠ 0)) (x : Nat) : row.getD x 0 = 0 := by
  induction x using Nat.strong_induction_on with
  | _ x ih =>
    by_cases hx : x < row.length
    · have hbit : bitAt row x = false := by
        rcases Nat.eq_zero_or_pos x with rfl | hpos
        · exact bitAt_zero h
        · exact bitAt_of_zero (ih (x / 8) (Nat.div_lt_self hpos (by decide)))
      simpa [hbit] using hbits x hx
    · rw [List.getD_eq_getElem?_getD, List.getElem?_eq_none (by omega)]
      rfl

/-! ## Reading bitmaps -/

/-- What a reader sees who takes the bytes of a row for bits. -/
def bitRow (row : List UInt8) : List Pixel :=
  (List.range row.length).map fun x => Pixel.grey (if bitAt row x then 255 else 0)

theorem pixels_bitsOf (indices : List (List UInt8)) : (bitsOf indices).pixels = indices.map bitRow := by
  simp [bitsOf, Picture.pixels, bitRow, Function.comp_def]

theorem bitRow_of_zero {row : List UInt8} {table : List Pixel} (h : ∀ k ∈ row, k = 0)
    (ht : Picture.lookup table 0 = Pixel.black) : bitRow row = row.map (Picture.lookup table) := by
  apply List.ext_getElem
  · simp [bitRow]
  intro x h1 h2
  have hz : ∀ y, row.getD y 0 = 0 := by
    intro y
    rw [List.getD_eq_getElem?_getD]
    rcases hy : row[y]? with _ | k
    · rfl
    · exact h k (List.mem_of_getElem? hy)
  simp [bitRow, bitAt_of_zero (hz _), h _ (List.getElem_mem _), ht, Pixel.grey, Pixel.black]

theorem lookup_blackWhite {k : UInt8} (h : k.toNat < 2) :
    Picture.lookup [Pixel.black, Pixel.white] k = Pixel.grey (if k ≠ 0 then 255 else 0) := by
  have hk : k = 0 ∨ k = 1 := by
    rcases (by omega : k.toNat = 0 ∨ k.toNat = 1) with hk | hk
    · exact .inl (UInt8.toNat_inj.1 hk)
    · exact .inr (UInt8.toNat_inj.1 hk)
  rcases hk with rfl | rfl <;> rfl

/-- A row of black and white is read as it is exactly when it is black. -/
theorem bitRow_eq_iff {row : List UInt8} (h : ∀ k ∈ row, k.toNat < 2) :
    bitRow row = row.map (Picture.lookup [Pixel.black, Pixel.white]) ↔ ∀ k ∈ row, k = 0 := by
  constructor
  · intro heq k hk
    have hbits : ∀ x < row.length, bitAt row x = decide (row.getD x 0 ≠ 0) := by
      intro x hx
      have hpixel := congrArg (fun r : List Pixel => r[x]?) heq
      have hlt : row[x].toNat < 2 := h _ (List.getElem_mem hx)
      simp only [bitRow, List.getElem?_map, List.getElem?_range hx, List.getElem?_eq_getElem hx, Option.map_some,
        Option.some.injEq, lookup_blackWhite hlt, Pixel.grey] at hpixel
      rw [List.getD_eq_getElem _ _ hx]
      by_cases hb : bitAt row x <;> by_cases h0 : row[x] = 0 <;> simp_all
    obtain ⟨x, hx, rfl⟩ := List.getElem_of_mem hk
    rw [← List.getD_eq_getElem _ 0 hx]
    exact getD_eq_zero_of_bits h hbits x
  · exact fun hz => bitRow_of_zero hz rfl

theorem isTwoTone_iff {table : List Pixel} (h : ∀ x ∈ table, x.alpha = 255) :
    isTwoTone table ↔ table = [Pixel.black] ∨ table = [Pixel.black, Pixel.white] := by
  have hcolors : ∀ colors : List (Rgb UInt8), table.map Pixel.color = colors ↔ table = colors.map (Pixel.mk · 255) := by
    rintro colors
    constructor
    · rintro rfl
      rw [List.map_map]
      refine ((List.map_congr_left fun x hx => ?_).trans (List.map_id _)).symm
      simp [← h x hx]
    · rintro rfl
      simp [Function.comp_def]
  simp [isTwoTone, hcolors, Pixel.black, Pixel.white]

/-- Where a table holds the greys in order, an index is its grey. -/
theorem lookup_of_isRamp {table : List Pixel} (h : ∀ x ∈ table, x.alpha = 255) (hr : isRamp table) {k : UInt8}
    (hk : k.toNat < table.length) : Picture.lookup table k = Pixel.grey k := by
  have hmem : (table[k.toNat], k.toNat) ∈ table.zipIdx := List.mk_mem_zipIdx_iff_getElem?.2 (List.getElem?_eq_getElem hk)
  have hcolor := List.all_eq_true.1 hr _ hmem
  simp only [beq_iff_eq] at hcolor
  have halpha := h _ (List.getElem_mem hk)
  rw [Picture.lookup, List.getElem?_eq_getElem hk, Option.getD_some, Pixel.grey]
  cases hx : table[k.toNat]
  simp_all

/-- **When a bitmap shows what was written.** With indices into an opaque table the reader of a bitmap sees the colours of
the table, except when the table is black and white and white is used. -/
theorem pixels_reread_bmp {indices : List (List UInt8)} {table : List Pixel} (h : ∀ x ∈ table, x.alpha = 255)
    (hlt : ∀ row ∈ indices, ∀ k ∈ row, k.toNat < table.length) :
    (reread .bmp (.indexed indices table)).pixels = (Picture.indexed indices table).pixels ↔
      table ≠ [Pixel.black, Pixel.white] ∨ ∀ row ∈ indices, ∀ k ∈ row, k = 0 := by
  rw [reread]
  by_cases htwo : isTwoTone table
  · rw [if_pos htwo, pixels_bitsOf, Picture.pixels]
    rcases (isTwoTone_iff h).1 htwo with rfl | rfl
    · refine iff_of_true (List.map_congr_left fun row hrow => bitRow_of_zero (fun k hk => ?_) rfl) (.inl (by decide))
      exact UInt8.toNat_inj.1 (Nat.lt_one_iff.1 (hlt row hrow k hk))
    · rw [List.map_inj_left]
      simp only [ne_eq, not_true_eq_false, false_or]
      exact forall₂_congr fun row hrow => bitRow_eq_iff (hlt row hrow)
  · have hne : table ≠ [Pixel.black, Pixel.white] := fun ht => htwo ((isTwoTone_iff h).2 (.inr ht))
    refine iff_of_true ?_ (.inl hne)
    rw [if_neg htwo]
    split
    · rename_i hramp
      simp only [greysOf, Picture.pixels]
      exact List.map_congr_left fun row hrow => List.map_congr_left fun k hk =>
        (lookup_of_isRamp h hramp.1 (hlt row hrow k hk)).symm
    · rfl

end Format

/-! ## Writing and reading -/

namespace Disk

theorem get?_put_self (d : Disk) (p : Path) (n : Node) : (d.put p n).get? p = some n := by
  unfold put get?
  split
  · rename_i hany
    rw [List.find?_map]
    have hfind : (d.entries.find? ((fun e => decide (e.1 = p)) ∘ fun e => if e.1 = p then (p, n) else e)).isSome := by
      obtain ⟨e, he, hep⟩ := List.any_eq_true.1 hany
      exact List.find?_isSome.2 ⟨e, he, by simp_all⟩
    obtain ⟨e, he⟩ := Option.isSome_iff_exists.1 hfind
    have hep := List.find?_some he
    rw [he]
    by_cases h : e.1 = p <;> simp_all
  · rename_i hany
    rw [List.find?_append, List.find?_eq_none.2]
    · simp
    · intro e he hep
      exact hany (List.any_eq_true.2 ⟨e, he, hep⟩)

/-- **What a written picture shows.** A picture that its format takes is written, and reading it back shows what the format's
reader makes of the picture in the file. -/
theorem writePicture_ok {d : Disk} {p q : Path} {f : Format} {picture stored : Picture} {clear : Value}
    (hf : Format.forWriting p.name = .ok f) (hq : d.place p = .ok q) (hs : f.store p.name picture clear = .ok stored)
    (hr : f.isReadable) :
    ∃ d', d.writePicture p picture clear .null = .ok (d', stored) ∧
      (d'.scan? q).map Scan.pixels = some (f.reread stored).pixels := by
  have ht : f.keptOrientation .null = .ok 1 := by
    unfold Format.keptOrientation
    split <;> rfl
  refine ⟨d.put q (.file (f.scan? stored 1)), ?_, ?_⟩
  · rw [writePicture, hf]
    simp only [bind, Except.bind]
    rw [hq]
    dsimp only
    rw [hs]
    dsimp only
    rw [ht]
    rfl
  · rw [scan?, get?_put_self, Format.scan?, if_pos hr]
    rfl

end Disk

end Tessera
