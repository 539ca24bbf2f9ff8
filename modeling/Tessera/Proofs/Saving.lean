import Mathlib
import Tessera.Picture.Save
import Tessera.Proofs.Files
import Tessera.Proofs.Rasters
import Tessera.Proofs.Settings
/-!
# What saved compositions show

A pixel of a composition is named in two ways: by the numbers of its palette and its slot, and by one number in the table
of all colours. `Composition.render_eq_lookup` says that both name the same pixel, transparency included. So a file with
indices and the table shows the rendered image, and so does a file with the pixels themselves (`Composition.save_shows`).
The reader of the bitmap format is at fault for one table, black and white (`Composition.checkers_misread`).
-/

namespace Tessera.Composition

variable {α : Type} {c : Composition α}

/-- Palette numbers, colour numbers and the transparent index name what is there, and the tiles cover the image. -/
structure InRange (c : Composition α) : Prop where
  tilePalettes_lt : ∀ row ∈ c.tilePalettes, ∀ p ∈ row, p < c.palettes.length
  colorIndices_lt : ∀ row ∈ c.colorIndices, ∀ k ∈ row, k < c.slots
  transparentIndex_lt : ∀ k ∈ c.transparentIndex, k < c.slots
  isCovered : c.isCovered

/-- The path under which a composition is saved. -/
def target (c : Composition α) (p : Path) : Path := if c.fitsIndexed then p else alphaPath p

/-! ## The table of all colours -/

/-- A table made palette by palette, entry by entry. -/
theorem flatMap_palettes {β : Type} (c : Composition α) (f : Vector (Rgb UInt8) c.slots → Fin c.slots → β) :
    (c.palettes.flatMap fun v => List.ofFn (f v)) =
      List.ofFn fun i : Fin (c.palettes.length * c.slots) => f (c.palettes.get i.divNat) i.modNat := by
  rw [← flatten_ofFn fun (i : Fin c.palettes.length) k => f (c.palettes.get i) k, List.flatMap]
  congr 1
  apply List.ext_getElem
  · simp
  · intro i h1 h2
    simp

theorem clearTable_eq (c : Composition α) :
    c.clearTable = List.ofFn fun i : Fin (c.palettes.length * c.slots) =>
      (⟨(c.palettes.get i.divNat).get i.modNat, c.alphaOf i.modNat⟩ : Pixel) := by
  rw [← flatMap_palettes c fun v k => (⟨v.get k, c.alphaOf k⟩ : Pixel), clearTable]
  refine List.flatMap_congr fun v _ => List.ext_getElem (by simp) fun k h1 h2 => ?_
  simp [Vector.get]

theorem length_clearTable (c : Composition α) : c.clearTable.length = c.tableSize := by
  rw [clearTable_eq, List.length_ofFn, tableSize]

theorem map_color_clearTable (c : Composition α) : c.clearTable.map Pixel.color = c.flatPalette := by
  rw [clearTable, flatPalette, List.map_flatMap]
  refine List.flatMap_congr fun v _ => ?_
  rw [List.map_map]
  exact List.zipIdx_map_fst 0 v.toList

theorem map_solid_clearTable (c : Composition α) : c.clearTable.map Pixel.solid = c.fullTable := by
  rw [fullTable, ← map_color_clearTable, List.map_map]
  rfl

/-- The alpha of an entry of the table is that of its slot. -/
theorem alpha_clearTable {i : Nat} {x : Pixel} (h : c.clearTable[i]? = some x) : x.alpha = c.alphaOf (i % c.slots) := by
  rw [clearTable_eq, List.getElem?_ofFn] at h
  split at h
  · cases h
    rfl
  · cases h

/-- The number in the table names the same pixel as palette and slot. -/
theorem pixelAt_eq {p k : Nat} (hp : p < c.palettes.length) (hk : k < c.slots) :
    c.pixelAt p k = .ok (c.clearTable[p * c.slots + k]?.getD Pixel.black) := by
  have hentry : c.clearTable[p * c.slots + k]? = some ⟨(c.palettes.get ⟨p, hp⟩).get ⟨k, hk⟩, c.alphaOf k⟩ := by
    have hlt : p * c.slots + k < c.palettes.length * c.slots := digit_pair_lt hp hk
    rw [clearTable_eq, List.getElem?_ofFn, dif_pos hlt]
    simp only [divNat_pair ⟨p, hp⟩ ⟨k, hk⟩ hlt, modNat_pair ⟨p, hp⟩ ⟨k, hk⟩ hlt]
  rw [hentry, Option.getD_some]
  simp [pixelAt, colorAt, hp, hk]
  rfl

/-! ## Numbers of pixels -/

theorem mem_paletteMap (h : c.InRange) {row : List Nat} (hrow : row ∈ c.paletteMap) : ∀ p ∈ row, p < c.palettes.length := by
  intro p hp
  obtain ⟨tiles, htiles, hrow⟩ := List.mem_flatMap.1 hrow
  obtain rfl := List.eq_of_mem_replicate hrow
  obtain ⟨q, hq, hp⟩ := List.mem_flatMap.1 hp
  obtain rfl := List.eq_of_mem_replicate hp
  exact h.tilePalettes_lt tiles htiles p hq

theorem zipRows_eq_map {β γ δ : Type} (f : β → γ → δ) (a : List (List β)) (b : List (List γ)) :
    zipRows f a b = (a.zip b).map fun rs => (rs.1.zip rs.2).map fun xy => f xy.1 xy.2 := by
  simp [zipRows, ← List.map_uncurry_zip_eq_zipWith, Function.uncurry_def]

/-- A palette number and a colour number that stand at the same pixel are in range. -/
theorem InRange.of_mem_zip (h : c.InRange) {rs : List Nat × List Nat} (hrs : rs ∈ c.paletteMap.zip c.colorIndices)
    {pk : Nat × Nat} (hpk : pk ∈ rs.1.zip rs.2) : pk.1 < c.palettes.length ∧ pk.2 < c.slots :=
  ⟨mem_paletteMap h (List.of_mem_zip hrs).1 _ (List.of_mem_zip hpk).1,
    h.colorIndices_lt _ (List.of_mem_zip hrs).2 _ (List.of_mem_zip hpk).2⟩

/-- All numbers in the table are numbers of entries. -/
theorem flatIndices_lt (h : c.InRange) : ∀ row ∈ c.flatIndices, ∀ i ∈ row, i < c.tableSize := by
  intro row hrow i hi
  rw [flatIndices, zipRows_eq_map] at hrow
  obtain ⟨rs, hrs, rfl⟩ := List.mem_map.1 hrow
  obtain ⟨pk, hpk, rfl⟩ := List.mem_map.1 hi
  obtain ⟨hp, hk⟩ := h.of_mem_zip hrs hpk
  exact digit_pair_lt hp hk

theorem mapM_map_ok {ε β γ δ : Type} {f : β → γ} {g : γ → Except ε δ} {r : β → δ} {xs : List β}
    (h : ∀ x ∈ xs, g (f x) = .ok (r x)) : (xs.map f).mapM g = .ok (xs.map r) := by
  induction xs with
  | nil => rfl
  | cons x xs ih =>
    rw [List.map_cons, List.mapM_cons, h x List.mem_cons_self, ih fun y hy => h y (List.mem_cons_of_mem _ hy)]
    rfl

/-- The pixel of a number in the table. -/
def entry (c : Composition α) (i : Nat) : Pixel := c.clearTable[i]?.getD Pixel.black

/-- **Two names for a pixel.** Rendering looks every pixel's number up in the table. -/
theorem render_eq_lookup (h : c.InRange) : c.render = .ok (c.flatIndices.map fun row => row.map c.entry) := by
  rw [render, if_pos h.isCovered, flatIndices, zipRows_eq_map, zipRows_eq_map, List.map_map]
  refine mapM_map_ok fun rs hrs => ?_
  dsimp only [Function.comp_apply]
  rw [List.map_map]
  refine mapM_map_ok fun pk hpk => ?_
  obtain ⟨hp, hk⟩ := h.of_mem_zip hrs hpk
  exact pixelAt_eq hp hk

/-! ## Indices as bytes -/

theorem toNat_toUInt8_of_lt (h : c.InRange) (hfits : c.fitsIndexed) {row : List Nat} (hrow : row ∈ c.flatIndices) {i : Nat}
    (hi : i ∈ row) : i.toUInt8.toNat = i := by
  have hlt := flatIndices_lt h row hrow i hi
  have hle : c.tableSize ≤ 256 := of_decide_eq_true hfits
  exact UInt8.toNat_ofNat_of_lt' (show i < 256 by omega)

/-- The numbers of the pixels in the table, as bytes. -/
def flatBytes (c : Composition α) : List (List UInt8) := c.flatIndices.map fun row => row.map Nat.toUInt8

theorem byteIndices_eq (h : c.InRange) (hfits : c.fitsIndexed) : c.byteIndices = .ok c.flatBytes := by
  rw [byteIndices, if_pos hfits, checkedIndices, if_pos h.isCovered]
  rfl

/-- No number is cut to fit a byte. -/
theorem map_toNat_flatBytes (h : c.InRange) (hfits : c.fitsIndexed) :
    (c.flatBytes.map fun row => row.map UInt8.toNat) = c.flatIndices := by
  rw [flatBytes, List.map_map]
  refine (List.map_congr_left fun row hrow => ?_).trans (List.map_id _)
  rw [Function.comp_apply, List.map_map]
  exact (List.map_congr_left fun i hi => toNat_toUInt8_of_lt h hfits hrow hi).trans (List.map_id _)

theorem flatBytes_lt (h : c.InRange) (hfits : c.fitsIndexed) : ∀ row ∈ c.flatBytes, ∀ k ∈ row, k.toNat < c.tableSize := by
  rintro row hrow k hk
  refine flatIndices_lt h (row.map UInt8.toNat) ?_ _ (List.mem_map_of_mem hk)
  rw [← map_toNat_flatBytes h hfits]
  exact List.mem_map_of_mem hrow

/-- The picture of the bytes with a table shows what the table has for the numbers. -/
theorem pixels_flatBytes (h : c.InRange) (hfits : c.fitsIndexed) (table : List Pixel) :
    (Picture.indexed c.flatBytes table).pixels =
      c.flatIndices.map fun row => row.map fun i => table[i]?.getD Pixel.black := by
  conv_rhs => rw [← map_toNat_flatBytes h hfits]
  simp [Picture.pixels, Picture.lookup, Function.comp_def]

/-! ## Opaque tables -/

theorem alpha_fullTable : ∀ x ∈ c.fullTable, x.alpha = 255 := by
  intro x hx
  obtain ⟨color, -, rfl⟩ := List.mem_map.1 hx
  rfl

theorem length_fullTable (c : Composition α) : c.fullTable.length = c.tableSize := by
  rw [← map_solid_clearTable, List.length_map, length_clearTable]

theorem map_color_fullTable (c : Composition α) : c.fullTable.map Pixel.color = c.flatPalette := by
  simp [fullTable, Function.comp_def]

theorem fullTable_getD (c : Composition α) (i : Nat) : c.fullTable[i]?.getD Pixel.black = (c.entry i).solid := by
  rw [← map_solid_clearTable, List.getElem?_map, entry]
  cases c.clearTable[i]? <;> rfl

theorem fullTable_eq_iff (c : Composition α) :
    c.fullTable = [Pixel.black, Pixel.white] ↔ c.flatPalette = [Pixel.black.color, Pixel.white.color] := by
  constructor
  · intro h
    rw [← map_color_fullTable, h]
    rfl
  · intro h
    rw [fullTable, h]
    rfl

/-! ## Pictures with pixels -/

theorem map_length_zipRows {β γ δ : Type} (f : β → γ → δ) {a : List (List β)} {b : List (List γ)}
    (h : rowLengths a = rowLengths b) : rowLengths (zipRows f a b) = rowLengths b := by
  induction a generalizing b with
  | nil =>
    cases b with
    | nil => rfl
    | cons s b => simp [rowLengths] at h
  | cons r a ih =>
    cases b with
    | nil => rfl
    | cons s b =>
      simp only [rowLengths, List.map_cons, List.cons.injEq] at h
      have := ih h.2
      simp_all [rowLengths, zipRows]

/-- A composition that has a pixel gives pictures that have one. -/
theorem not_isEmpty (h : c.InRange) (hpixel : ∃ row ∈ c.colorIndices, row ≠ []) {pic : Picture} {g : Nat → Pixel}
    (hpic : pic.pixels = c.flatIndices.map fun row => row.map g) : ¬ pic.isEmpty := by
  have hlengths : rowLengths c.flatIndices = rowLengths c.colorIndices := map_length_zipRows _ (eq_of_beq h.isCovered)
  obtain ⟨row, hrow, hne⟩ := hpixel
  have hmem : row.length ∈ rowLengths c.flatIndices := by
    rw [hlengths]
    exact List.mem_map_of_mem hrow
  obtain ⟨row', hrow', hlen⟩ := List.mem_map.1 hmem
  intro hempty
  rw [Picture.isEmpty, hpic] at hempty
  have hnil : row' = [] := by simpa using List.all_eq_true.1 hempty _ (List.mem_map_of_mem hrow')
  rw [hnil] at hlen
  exact hne (List.length_eq_zero_iff.1 hlen.symm)

/-! ## Saving -/

variable {d : Disk} {p q : Path}

theorem save_indexed {indices : List (List UInt8)} {table : List Pixel} {d' : Disk} {stored : Picture}
    (hfits : c.fitsIndexed) (hb : c.byteIndices = .ok indices) (ht : c.tableFor p = .ok table)
    (hw : d.writePicture p (.indexed indices table) .null .null = .ok (d', stored)) :
    c.save d p = .ok (d', p, stored) := by
  rw [save, if_pos hfits, hb, ht]
  simp only [bind, Except.bind, pure, Except.pure, hw]

theorem save_png (h : c.InRange) (hpixel : ∃ row ∈ c.colorIndices, row ≠ []) (hfits : c.fitsIndexed)
    (hp : p.hasSuffix alphaSuffix) (hf : Format.forWriting p.name = .ok .png) (hq : d.place p = .ok q) :
    ∃ d', c.save d p = .ok (d', p, .indexed c.flatBytes c.clearTable) ∧
      (d'.scan? q).map Scan.pixels = some (c.flatIndices.map fun row => row.map c.entry) := by
  have hpixels := pixels_flatBytes h hfits c.clearTable
  have hclear : c.isClearable := by
    rw [isClearable, Bool.or_eq_true]
    right
    rw [Option.all_eq_true]
    exact fun k hk => decide_eq_true (h.transparentIndex_lt k hk)
  have htable : c.tableFor p = .ok c.clearTable := by rw [tableFor, if_pos hp, if_pos hclear]; rfl
  have hstore := Format.store_png_indexed p.name (by simpa only [length_clearTable] using flatBytes_lt h hfits)
    (not_isEmpty h hpixel hpixels)
  obtain ⟨d', hw, hshown⟩ := Disk.writePicture_ok hf hq hstore rfl
  refine ⟨d', save_indexed hfits (byteIndices_eq h hfits) htable hw, ?_⟩
  rw [hshown]
  exact congrArg some hpixels

theorem save_full (h : c.InRange) (hpixel : ∃ row ∈ c.colorIndices, row ≠ []) (hfits : ¬ c.fitsIndexed)
    (hf : Format.forWriting (alphaPath p).name = .ok .png) (hq : d.place (alphaPath p) = .ok q) :
    ∃ d', c.save d p = .ok (d', alphaPath p, .full .colorAlpha (c.flatIndices.map fun row => row.map c.entry)) ∧
      (d'.scan? q).map Scan.pixels = some (c.flatIndices.map fun row => row.map c.entry) := by
  have hrender := render_eq_lookup h
  have hsome : ∀ pic : Picture, pic.pixels = (c.flatIndices.map fun row => row.map c.entry) → ¬ pic.isEmpty :=
    fun pic => not_isEmpty h hpixel
  generalize (c.flatIndices.map fun row => row.map c.entry) = rows at *
  have hstore := Format.store_png_full (alphaPath p).name (hsome (.full .colorAlpha rows) rfl)
  obtain ⟨d', hw, hshown⟩ := Disk.writePicture_ok hf hq hstore rfl
  refine ⟨d', ?_, hshown⟩
  rw [save, if_neg hfits, hrender]
  simp only [bind, Except.bind, pure, Except.pure, hw]

/-- White is used exactly where an index is not zero, when the table is black and white. -/
theorem zero_iff_not_white (h : c.InRange) (ht : c.fullTable = [Pixel.black, Pixel.white]) :
    (∀ row ∈ c.flatBytes, ∀ k ∈ row, k = 0) ↔
      ∀ row ∈ c.flatIndices, ∀ i ∈ row, (c.entry i).color ≠ Pixel.white.color := by
  have hsize : c.tableSize = 2 := by rw [← length_fullTable, ht]; rfl
  have hentry : ∀ i < 2, i.toUInt8 = 0 ↔ (c.entry i).color ≠ Pixel.white.color := by
    intro i hi
    have hcolor : (c.entry i).color = ([Pixel.black, Pixel.white][i]?.getD Pixel.black).color := by
      rw [← ht, fullTable_getD]
      rfl
    rw [hcolor]
    interval_cases i <;> decide
  rw [flatBytes]
  simp only [List.forall_mem_map]
  exact forall₂_congr fun row hrow => forall₂_congr fun i hi => hentry i (hsize ▸ flatIndices_lt h row hrow i hi)

theorem save_bmp (h : c.InRange) (hpixel : ∃ row ∈ c.colorIndices, row ≠ []) (hfits : c.fitsIndexed)
    (hf : Format.forWriting p.name = .ok .bmp) (hq : d.place p = .ok q) :
    ∃ d', c.save d p = .ok (d', p, .indexed c.flatBytes c.fullTable) ∧
      ((d'.scan? q).map Scan.pixels = some (c.flatIndices.map fun row => row.map fun i => (c.entry i).solid) ↔
        c.flatPalette ≠ [Pixel.black.color, Pixel.white.color] ∨
          ∀ row ∈ c.flatIndices, ∀ i ∈ row, (c.entry i).color ≠ Pixel.white.color) := by
  have hpixels := pixels_flatBytes h hfits c.fullTable
  simp only [fullTable_getD] at hpixels
  have hp : ¬ p.hasSuffix alphaSuffix := fun hp => absurd (Format.forWriting_of_hasSuffix hp hf) (by decide)
  have htable : c.tableFor p = .ok c.fullTable := by rw [tableFor, if_neg hp]; rfl
  have hstore := Format.store_bmp_indexed p.name alpha_fullTable (not_isEmpty h hpixel hpixels)
  obtain ⟨d', hw, hshown⟩ := Disk.writePicture_ok hf hq hstore rfl
  refine ⟨d', save_indexed hfits (byteIndices_eq h hfits) htable hw, ?_⟩
  rw [hshown, Option.some_inj, ← hpixels,
    Format.pixels_reread_bmp alpha_fullTable (by simpa only [length_fullTable] using flatBytes_lt h hfits),
    ne_eq, fullTable_eq_iff]
  by_cases ht : c.fullTable = [Pixel.black, Pixel.white]
  · rw [zero_iff_not_white h ht]
  · exact iff_of_true (.inl fun hflat => ht (c.fullTable_eq_iff.2 hflat)) (.inl fun hflat => ht (c.fullTable_eq_iff.2 hflat))

/-- Looking the numbers up in the table of all colours gives the colours of the image. -/
theorem flatPalette_lookup (h : c.InRange) :
    (c.flatIndices.map fun row => row.map fun i => c.flatPalette[i]?) =
      (c.flatIndices.map fun row => row.map c.entry).map fun row => row.map fun x => some x.color := by
  rw [List.map_map]
  refine List.map_congr_left fun row hrow => ?_
  rw [Function.comp_apply, List.map_map]
  refine List.map_congr_left fun i hi => ?_
  have hlt : i < c.clearTable.length := by
    rw [length_clearTable]
    exact flatIndices_lt h row hrow i hi
  rw [Function.comp_apply, entry, ← map_color_clearTable, List.getElem?_map, List.getElem?_eq_getElem hlt]
  rfl

/-- A composition that does not fit a table is written in the format with alpha. -/
theorem forWriting_alphaPath {f : Format} (hf : Format.forWriting (alphaPath p).name = .ok f) : f = .png := by
  rw [alphaPath] at hf
  split at hf
  · exact Format.forWriting_of_hasSuffix ‹_› hf
  · exact Format.forWriting_of_withSuffix hf

/-- **Saved files show the rendered image.** Let the disk take the file, and let there be a pixel. In the format with alpha
the file shows exactly the rendered pixels, whether it holds indices and a table or, when the table is larger than bytes can
index, the pixels themselves. A bitmap with a table shows them without alpha, but for one case: the table is black and white
and white is used. Where there is a table, the file holds every pixel's own number, and the table holds all colours in
order, each with the alpha of its slot. -/
theorem save_shows {f : Format} (h : c.InRange) (hpixel : ∃ row ∈ c.colorIndices, row ≠ [])
    (hf : Format.forWriting (c.target p).name = .ok f) (hq : d.place (c.target p) = .ok q)
    (hkind : ¬ c.fitsIndexed ∨ p.hasSuffix alphaSuffix ∨ f = .bmp) :
    ∃ rows d' stored, c.render = .ok rows ∧ c.save d p = .ok (d', c.target p, stored) ∧
      (¬ c.fitsIndexed ∨ p.hasSuffix alphaSuffix → (d'.scan? q).map Scan.pixels = some rows) ∧
      (f = .bmp → ((d'.scan? q).map Scan.pixels = some (rows.map fun row => row.map Pixel.solid) ↔
        c.flatPalette ≠ [Pixel.black.color, Pixel.white.color] ∨
          ∀ row ∈ rows, ∀ x ∈ row, x.color ≠ Pixel.white.color)) ∧
      (¬ c.fitsIndexed → stored = .full .colorAlpha rows) ∧
      (c.fitsIndexed → ∃ indices table, stored = .indexed indices table ∧
        (indices.map fun row => row.map UInt8.toNat) = c.flatIndices ∧ table.map Pixel.color = c.flatPalette ∧
        (∀ i x, table[i]? = some x → x.alpha = if f = .bmp then 255 else c.alphaOf (i % c.slots)) ∧
        (c.flatIndices.map fun row => row.map fun i => c.flatPalette[i]?) =
          rows.map fun row => row.map fun x => some x.color) := by
  by_cases hfits : c.fitsIndexed
  · rw [target, if_pos hfits] at hf hq ⊢
    have hpng : p.hasSuffix alphaSuffix → f = .png := fun hp => Format.forWriting_of_hasSuffix hp hf
    rcases hkind.resolve_left (not_not_intro hfits) with hp | rfl
    · obtain rfl := hpng hp
      obtain ⟨d', hsave, hshown⟩ := save_png h hpixel hfits hp hf hq
      refine ⟨_, d', _, render_eq_lookup h, hsave, fun _ => hshown, fun hbmp => absurd hbmp (by decide), absurd hfits,
        fun _ => ?_⟩
      exact ⟨_, _, rfl, map_toNat_flatBytes h hfits, map_color_clearTable c, fun i x hx => alpha_clearTable hx,
        flatPalette_lookup h⟩
    · obtain ⟨d', hsave, hshown⟩ := save_bmp h hpixel hfits hf hq
      refine ⟨_, d', _, render_eq_lookup h, hsave, ?_, fun _ => ?_, absurd hfits, fun _ => ?_⟩
      · rintro (hlarge | hp)
        · exact absurd hfits hlarge
        · exact absurd (hpng hp) (by decide)
      · simpa [Function.comp_def] using hshown
      · exact ⟨_, _, rfl, map_toNat_flatBytes h hfits, map_color_fullTable c,
          fun i x hx => alpha_fullTable x (List.mem_of_getElem? hx), flatPalette_lookup h⟩
  · rw [target, if_neg hfits] at hf hq ⊢
    obtain rfl := forWriting_alphaPath hf
    obtain ⟨d', hsave, hshown⟩ := save_full h hpixel hfits hf hq
    exact ⟨_, d', _, render_eq_lookup h, hsave, fun _ => hshown, fun hbmp => absurd hbmp (by decide), fun _ => rfl,
      fun hyes => absurd hyes hfits⟩

/-- Two palettes of two colours, the first of each transparent, on two tiles. -/
def pair : Composition Rat where
  slots := 2
  palettes := [#v[⟨10, 20, 30⟩, ⟨40, 50, 60⟩], #v[⟨10, 20, 30⟩, ⟨70, 80, 90⟩]]
  tilePalettes := [[1, 0]]
  colorIndices := [[0, 1], [1, 0]]
  tileWidth := 1
  tileHeight := 2
  mse := 0
  cancelled := false
  transparentIndex := some 0

/-- Two tiles with a transparent colour, in the format with alpha. -/
theorem save_shows_pair :
    pair.InRange ∧ ∃ rows d' indices table, pair.render = .ok rows ∧
      pair.save ⟨[]⟩ (.ofText "o.png") = .ok (d', .ofText "o.png", .indexed indices table) ∧
      (d'.scan? (.ofText "o.png")).map Scan.pixels = some rows ∧
      (indices.map fun row => row.map UInt8.toNat) = [[2, 1], [3, 0]] := by
  have h : pair.InRange := ⟨by decide, by decide, by decide, by decide⟩
  have hfits : pair.fitsIndexed := by decide
  have hp : (Path.ofText "o.png").hasSuffix alphaSuffix := by decide +kernel
  obtain ⟨rows, d', stored, hrender, hsave, hshown, -, -, hstored⟩ :=
    save_shows (c := pair) (d := ⟨[]⟩) (p := .ofText "o.png") (q := .ofText "o.png") (f := .png) h
      ⟨[0, 1], by decide, by decide⟩ rfl rfl (.inr (.inl hp))
  obtain ⟨indices, table, rfl, hindices, -⟩ := hstored hfits
  exact ⟨h, rows, d', indices, table, hrender, hsave, hshown (.inr hp), hindices⟩

/-- Black and white in turns. -/
def checkers : Composition Rat where
  slots := 2
  palettes := [#v[⟨0, 0, 0⟩, ⟨255, 255, 255⟩]]
  tilePalettes := [[0]]
  colorIndices := [[0, 1], [1, 0]]
  tileWidth := 2
  tileHeight := 2
  mse := 0
  cancelled := false
  transparentIndex := none

theorem checkers_inRange : checkers.InRange := ⟨by decide, by decide, by decide, by decide⟩

/-- The reader of a bitmap takes black and white for bits, and then all is black. -/
theorem checkers_misread :
    checkers.InRange ∧ ∃ rows d' stored, checkers.render = .ok rows ∧
      checkers.save ⟨[]⟩ (.ofText "o.bmp") = .ok (d', .ofText "o.bmp", stored) ∧
      (d'.scan? (.ofText "o.bmp")).map Scan.pixels ≠ some (rows.map fun row => row.map Pixel.solid) := by
  obtain ⟨d', hsave, hshown⟩ := save_bmp (c := checkers) (d := ⟨[]⟩) (p := .ofText "o.bmp") (q := .ofText "o.bmp")
    checkers_inRange ⟨[0, 1], by decide, by decide⟩ (by decide) rfl rfl
  refine ⟨checkers_inRange, _, d', _, render_eq_lookup checkers_inRange, hsave, fun heq => ?_⟩
  have hno := hshown.1 (by simpa [Function.comp_def] using heq)
  revert hno
  decide +kernel

end Tessera.Composition
