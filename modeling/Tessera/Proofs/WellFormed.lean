import Mathlib
import Tessera.Proofs.Composition
import Tessera.Proofs.Run
import Tessera.Proofs.Settings
/-!
# What comes of a run is well-formed

Every palette set that a run reaches has the policy and the number of palettes of the settings and at most their number of
slots (`Plan.Reaches.shape`). So whatever a run composes has the sizes that the settings ask for, its numbers are in range,
and exactly the reserved pixels are transparent (`quantize_wellFormed`).
-/

namespace Tessera

variable {α γ : Type} [Scalar α] [OrderSource γ]

/-! ## The shape of reached sets -/

/-- The shape that settings give to the palette sets of a run. -/
structure Plan.Shape (p : Plan α) (s : PaletteSet α) : Prop where
  zero_eq : s.zero = p.settings.colorZero
  size_eq : s.size = p.settings.numPalettes
  slots_pos : 0 < s.slots
  slots_le : s.slots ≤ p.settings.colorsPerPalette

namespace Plan

variable {p : Plan α} {s : PaletteSet α}

omit [Scalar α] in
theorem Shape.changeColor (h : p.Shape s) (q slot : Nat) (f : Rgb α → Rgb α) : p.Shape (s.changeColor q slot f) := by
  refine ⟨?_, ?_, ?_, ?_⟩
  · rw [PaletteSet.changeColor_zero, h.zero_eq]
  · rw [PaletteSet.changeColor_size, h.size_eq]
  · rw [PaletteSet.changeColor_slots]; exact h.slots_pos
  · rw [PaletteSet.changeColor_slots]; exact h.slots_le

theorem start_shape (hmeans : p.means.Lawful) (hp : p.settings.InRange) : p.Shape p.start := by
  have htwo := hp.slots_le
  refine ⟨PaletteSet.ofSeeds_zero _ _ _ _, ?_, ?_, ?_⟩
  · rw [start, Start.palettes, PaletteSet.ofSeeds_size, Start.length_seeds hmeans _ hp.numPalettes_pos]
  all_goals
    rw [start, Start.palettes, PaletteSet.ofSeeds_slots]
    cases p.settings.colorZero <;> simp only [ColorZero.initialSlots] <;> omega

/-- **Shapes over a run.** Every set that a run reaches has the shape that the settings give. -/
theorem Reaches.shape (hmeans : p.means.Lawful) (hp : p.settings.InRange) (h : p.Reaches s) : p.Shape s := by
  induction h with
  | start => exact start_shape hmeans hp
  | moved q _ _ _ ih => exact ih.changeColor _ _ _
  | seeded _ hlt ih =>
    refine ⟨ih.zero_eq, ?_, Nat.succ_pos _, hlt⟩
    rw [Learner.seeded, PaletteSet.addSlot_size, ih.size_eq]
  | reseeded q slot c _ ih => exact ih.changeColor _ _ _
  | recentred _ ih => exact Depth.recenter_induct p.tiles ih fun t q k c _ ht => ht.changeColor _ _ _
  | reduced _ ih => exact ⟨ih.zero_eq, by rw [Depth.reduce_size, ih.size_eq], ih.slots_pos, ih.slots_le⟩
  | padded _ ih =>
    have hslots := PaletteSet.padded_slots _ p.settings.colorsPerPalette ih.slots_pos
    have := ih.slots_le
    have := ih.slots_pos
    exact ⟨by rw [PaletteSet.padded_zero, ih.zero_eq], by rw [PaletteSet.padded_size, ih.size_eq], by omega, by omega⟩

end Plan

/-! ## Compositions -/

/-- A composition of an image has the sizes that settings ask for, its numbers are in range, and it is transparent exactly
at the reserved places. -/
structure Composition.WellFormed (s : Settings α) {height width : Nat} (reserved : Fin height → Fin width → Bool)
    (c : Composition α) : Prop where
  palettes_length : c.palettes.length = s.numPalettes
  slots_eq : c.slots = s.colorsPerPalette
  tilePalettes_eq : ∃ r : Raster Nat (height / s.tileHeight) (width / s.tileWidth),
    c.tilePalettes = r.toLists ∧ ∀ y x, r.get y x < s.numPalettes
  colorIndices_eq : ∃ r : Raster Nat height width, c.colorIndices = r.toLists ∧
    (∀ y x, r.get y x < s.colorsPerPalette) ∧
    (s.colorZero.isTransparent → ∀ y x, r.get y x = 0 ↔ reserved y x)
  render_eq : ∃ r : Raster Pixel height width, c.render = .ok r.toLists ∧
    ∀ y x, (r.get y x).alpha = if reserved y x then 0 else 255
  transparentIndex_eq : c.transparentIndex = if s.colorZero.isTransparent then some 0 else none

namespace Plan

/-- Palettes of the right shape compose to what the settings ask for. -/
theorem compose_wellFormed {p : Plan α} (hp : p.settings.InRange) (hts : p.tiles = p.canvas.tiles)
    (htw : p.canvas.tiling.tileWidth = p.settings.tileWidth) (hth : p.canvas.tiling.tileHeight = p.settings.tileHeight)
    {s : PaletteSet α} (hs : p.Shape s) (cancelled : Bool) :
    (p.compose s cancelled).WellFormed p.settings fun y x =>
      p.settings.colorZero.isTransparent && p.canvas.reserved.get y x := by
  have hslots : (s.padded p.settings.colorsPerPalette).slots = p.settings.colorsPerPalette := by
    rw [PaletteSet.padded_slots _ _ hs.slots_pos]
    exact Nat.max_eq_left hs.slots_le
  have hzero : (s.padded p.settings.colorsPerPalette).zero = p.settings.colorZero := by
    rw [PaletteSet.padded_zero, hs.zero_eq]
  have hsize : (s.padded p.settings.colorsPerPalette).size = p.settings.numPalettes := by
    rw [PaletteSet.padded_size, hs.size_eq]
  have hpos : 0 < (s.padded p.settings.colorsPerPalette).size := by rw [hsize]; exact hp.numPalettes_pos
  have hcand : 0 < (s.padded p.settings.colorsPerPalette).candidateCount := by
    have := hp.slots_le
    rw [PaletteSet.candidateCount, PaletteSet.firstCandidate, hslots, hzero]
    omega
  rw [compose, hts]
  refine ⟨(List.length_map _).trans hsize, hslots, ?_, ?_, ?_, ?_⟩
  · rw [← hth, ← htw, ← p.canvas.tiling.rows_eq, ← p.canvas.tiling.cols_eq]
    refine ⟨_, Compose.compose_tilePalettes _ _ _, fun y x => ?_⟩
    rw [Raster.get_ofFn, ← hsize]
    exact Compose.paletteOf_lt _ _ hpos _
  · refine ⟨_, Compose.compose_colorIndices _ _ _ hpos, fun y x => ?_, fun ht y x => ?_⟩
    · rw [Raster.get_ofFn]
      exact Nat.lt_of_lt_of_eq (Compose.numberAt_lt _ _ hpos hcand y x) hslots
    · rw [Raster.get_ofFn, ht, Bool.true_and]
      exact Compose.numberAt_eq_zero_iff _ _ hpos hcand (by rw [hzero, ht]) y x
  · rw [← hzero]
    exact Compose.compose_render _ _ _ hpos hcand
  · rw [← hzero]
    rfl

end Plan

/-! ## Quantizing -/

omit [Scalar α] in
theorem Settings.reserves_isTransparent {s : Settings α} {x : Pixel} (h : s.reserves x) : s.colorZero.isTransparent := by
  rw [reserves] at h
  split at h
  · rename_i hz; rw [hz]; rfl
  · rename_i hz; rw [hz]; rfl
  · cases h

/-- **Quantizing.** Settings in bounds and an image that their tiles divide give a well-formed composition, from whatever
orders of the samples, with any lawful k-means and whatever number of workers, and whenever the audience stops the run. Its
transparent places are those whose pixels the settings reserve. -/
theorem quantize_wellFormed {γ : Type} [OrderSource γ] {d : Draft} {s : Settings Float} {means : Cluster.Means Float}
    (hmeans : means.Lawful) (b : Buffer) (im : Image) {source : Result γ} (workers : Value) {n : Number} {g : γ}
    (hs : d.settings = .ok s) (hm : d.missing = [])
    (hp : s.dither = .off ∨ s.ditherPattern.isRegistered) (hkey : s.transparentColor.IsBytes) (hb : b.toImage = .ok im)
    (hpos : 0 < im.height ∧ 0 < im.width) (hdh : s.tileHeight ∣ im.height) (hdw : s.tileWidth ∣ im.width)
    (hw : Number.ofValue workers = .ok n) (hg : source = .ok g) (a : Audience Float) :
    ∃ p o, d.quantizeWith means b source workers a = .ok (p, o) ∧
      o.composition.WellFormed s fun y x => s.reserves (im.pixels.get y x) := by
  obtain ⟨t, r, hplan, htw, hth, hr⟩ := Draft.planWith_eq_ok means hs hm hp hkey hb hpos hdh hdw
  refine ⟨_, _, Draft.quantizeWith_eq_ok hplan hm hw hg a, ?_⟩
  obtain ⟨set, cancelled, hset, hcomposition⟩ := ((Plan.make s im t r means).run_reached a g).composition
  have hwell := Plan.compose_wellFormed (p := Plan.make s im t r means) (Draft.inRange hs) rfl htw hth
    (hset.shape hmeans (Draft.inRange hs)) cancelled
  have hreserves : (fun y x => s.colorZero.isTransparent && r.get y x) = fun y x => s.reserves (im.pixels.get y x) := by
    funext y x
    cases hx : s.reserves (im.pixels.get y x) with
    | false => rw [hr, hx, Bool.and_false]
    | true => rw [hr, hx, Bool.and_true, Settings.reserves_isTransparent hx]
  rw [hcomposition, ← hreserves]
  exact hwell

/-- A run on a small image, stopped at its fourth report. -/
theorem quantize_wellFormed_small :
    ∃ s p o, Draft.small.settings = .ok s ∧ s.colorZero = .transparentKey ∧
      Draft.small.quantize Buffer.small (.int 7) (.int 2) ⟨fun i _ => i == 3, true⟩ = .ok (p, o) ∧
      o.composition.WellFormed s fun y x => s.reserves ((Buffer.small.pixels 2 2 3).get y x) := by
  obtain ⟨s, hs, htw, hth, hdither, hzero, hkey⟩ := Draft.small_settings
  have hg : Generator.ofValue (.int 7) = .ok (Generator.ofSeed 7) := rfl
  obtain ⟨p, o, hrun, hwell⟩ := quantize_wellFormed Cluster.lloyd_lawful Buffer.small ⟨2, 2, Buffer.small.pixels 2 2 3⟩
    (.int 2) hs (by decide +kernel) (.inl hdither) (by rw [hkey]; decide) rfl (by decide)
    (by rw [hth]) (by rw [htw]; exact one_dvd _) rfl hg ⟨fun i _ => i == 3, true⟩
  exact ⟨s, p, o, hs, hzero, hrun, hwell⟩

end Tessera
