import Mathlib
import Tessera.Proofs.ColorZero
import Tessera.Proofs.Floats
import Tessera.Proofs.History
import Tessera.Proofs.Levels
import Tessera.Proofs.Slots
/-!
# The bytes of a bit depth

In exact arithmetic a level of a bit depth is never midway between two bytes, so it is rounded to the byte nearest to it. A
multiple of the step beyond the levels is kept within the bytes, on the first or the last level (`Level.isByte_toByte`).
All ways to the end of a run lead through `Depth.reduce`, with dithering, without it and with nothing to optimise, and
lengthening repeats a colour that is on the levels, so all that is not reserved ends on them (`quantize_levels`).
-/

namespace Tessera

/-! ## Rounding to bytes -/

namespace Scalar

/-- A scalar is rounded to a whole number that is nearest to it. -/
theorem exists_rint (x : Rat) : ∃ n : ℤ, rint x = n ∧ |x - n| ≤ 1 / 2 := by
  have hle := Int.floor_le x
  have hlt := Int.lt_floor_add_one x
  have hfloor : (floor x : Rat) = (⌊x⌋ : ℤ) := rfl
  have hhalf : (ratio 1 2 : Rat) = 1 / 2 := by norm_num [ratio, ofNat, ofInt]
  have hone : (ofNat 1 : Rat) = 1 := by norm_num [ofNat, ofInt]
  have hup : (floor x : Rat) + ofNat 1 = ((⌊x⌋ + 1 : ℤ) : Rat) := by rw [hfloor, hone]; push_cast; ring
  unfold rint
  dsimp only
  rw [hhalf, hup, hfloor]
  split_ifs with hdown habove heven
  · exact ⟨⌊x⌋, rfl, abs_le.2 ⟨by linarith, by linarith⟩⟩
  · refine ⟨⌊x⌋ + 1, rfl, ?_⟩
    push_cast
    exact abs_le.2 ⟨by linarith, by linarith⟩
  · exact ⟨⌊x⌋, rfl, abs_le.2 ⟨by linarith, by linarith⟩⟩
  · refine ⟨⌊x⌋ + 1, rfl, ?_⟩
    push_cast
    exact abs_le.2 ⟨by linarith, by linarith⟩

/-- The byte of a scalar is its whole number, kept within the bytes. -/
theorem toNat_toByte {x : Rat} {n : ℤ} (h : rint x = n) : ((toByte x).toNat : ℤ) = max 0 (min n 255) := by
  have hzero : (ofNat 0 : Rat) = ((0 : ℤ) : Rat) := rfl
  have hlast : (ofNat 255 : Rat) = ((255 : ℤ) : Rat) := rfl
  have hwhole : toInt (n : Rat) = n := Rat.floor_intCast n
  unfold toByte
  dsimp only
  rw [h, hzero, hlast, hwhole]
  simp only [Int.cast_lt]
  split_ifs with hneg habove
  · simp
    omega
  · have : (255 : UInt8).toNat = 255 := rfl
    omega
  · rw [Nat.toUInt8, UInt8.toNat_ofNat_of_lt' (by omega : n.toNat < 256)]
    omega

/-- A scalar that is not midway between two whole numbers is rounded to the nearest. -/
theorem eq_round_of_abs_sub_le {x : Rat} {n : ℤ} (h : |x - n| ≤ 1 / 2) (hmid : ∀ m : ℤ, |x - m| ≠ 1 / 2) : n = round x := by
  have hround : |x - round x| < 1 / 2 := lt_of_le_of_ne (abs_sub_round x) (hmid _)
  have hn : |x - n| < 1 / 2 := lt_of_le_of_ne h (hmid n)
  have hdiff : |(n : Rat) - round x| < 1 := by
    have := abs_sub_le (n : Rat) x (round x)
    rw [abs_sub_comm (n : Rat) x] at this
    linarith
  have hint : |n - round x| < 1 := by exact_mod_cast hdiff
  exact sub_eq_zero.1 (Int.abs_lt_one_iff.1 hint)

end Scalar

/-! ## Levels -/

namespace Level

/-- The bytes that the levels of a bit depth are rounded to. -/
def IsByte (bits : Nat) (x : UInt8) : Prop :=
  ∃ k : Nat, k ≤ 2 ^ bits - 1 ∧ (x.toNat : ℤ) = round ((k : ℚ) * 255 / (2 ^ bits - 1))

/-- The number of the last level. -/
theorem cast_last (bits : Nat) : ((2 ^ bits - 1 : Nat) : Rat) = 2 ^ bits - 1 := by
  rw [Nat.cast_sub Nat.one_le_two_pow]
  push_cast
  ring

theorem last_pos {bits : Nat} (hb : 1 ≤ bits) : (0 : Rat) < 2 ^ bits - 1 := by
  have htwo : (2 : Rat) ^ 1 ≤ 2 ^ bits := pow_le_pow_right₀ (by norm_num) hb
  linarith

theorem step_eq (bits : Nat) : (step bits : Rat) = 255 / (2 ^ bits - 1) := by
  have hnum : (Scalar.ofNat 255 : Rat) = 255 := rfl
  have hden : (Scalar.ofInt ((Nat.pow 2 bits : Nat) - 1 : ℤ) : Rat) = 2 ^ bits - 1 := by
    change ((((2 ^ bits : Nat) : ℤ) - 1 : ℤ) : Rat) = 2 ^ bits - 1
    push_cast
    ring
  rw [step, hnum, hden]

/-- No multiple of a step is midway between two whole numbers, since the number of the last level is odd. -/
theorem abs_sub_ne_half {bits : Nat} (hb : 1 ≤ bits) (m n : ℤ) : |(m : Rat) * step bits - n| ≠ 1 / 2 := by
  intro h
  obtain ⟨e, he⟩ : ∃ e : ℤ, (2 : ℤ) ^ bits = 2 * e := dvd_pow_self 2 (by omega : bits ≠ 0)
  have hpos := last_pos hb
  have hcross : |2 * (255 * (m : Rat) - n * (2 ^ bits - 1))| = 2 ^ bits - 1 := by
    have hx : 2 * (255 * (m : Rat) - n * (2 ^ bits - 1)) = ((m : Rat) * step bits - n) * (2 * (2 ^ bits - 1)) := by
      rw [step_eq]
      field_simp
    rw [hx, abs_mul, h, abs_of_pos (by linarith)]
    ring
  have hint : |2 * (255 * m - n * (2 ^ bits - 1))| = (2 : ℤ) ^ bits - 1 := by exact_mod_cast hcross
  rw [he] at hint
  rcases abs_choice (2 * (255 * m - n * (2 * e - 1))) with habs | habs
  · rw [habs] at hint
    omega
  · rw [habs] at hint
    omega

/-- **Levels are bytes.** Every multiple of the step is rounded to a level, beyond the bytes to the first or the last. -/
theorem isByte_toByte {bits : Nat} (hb : 1 ≤ bits) {x : Rat} (hx : IsLevel (step bits) x) :
    IsByte bits (Scalar.toByte x) := by
  obtain ⟨m, rfl⟩ := hx
  have hpos := last_pos hb
  have hstep := step_pos hb
  have hlast : (2 ^ bits - 1) * step bits = (255 : Rat) := by
    rw [step_eq]
    field_simp
  obtain ⟨n, hn, hnear⟩ := Scalar.exists_rint ((m : Rat) * step bits)
  have hbyte := Scalar.toNat_toByte hn
  have hround := Scalar.eq_round_of_abs_sub_le hnear (abs_sub_ne_half hb m)
  obtain ⟨hlow, hhigh⟩ := abs_le.1 hnear
  by_cases hneg : m < 0
  · -- below the first level
    refine ⟨0, Nat.zero_le _, ?_⟩
    have hm : (m : Rat) * step bits ≤ 0 := mul_nonpos_of_nonpos_of_nonneg (by exact_mod_cast hneg.le) hstep.le
    have hn0 : n < 1 := by exact_mod_cast (by linarith : (n : Rat) < 1)
    rw [hbyte]
    simp
    omega
  by_cases hover : 2 ^ bits - 1 < m
  · -- beyond the last level
    refine ⟨2 ^ bits - 1, le_rfl, ?_⟩
    have hm : (255 : Rat) ≤ (m : Rat) * step bits := by
      rw [← hlast]
      refine mul_le_mul_of_nonneg_right ?_ hstep.le
      exact_mod_cast hover.le
    have hn255 : 254 < n := by exact_mod_cast (by linarith : (254 : Rat) < n)
    have htop : ((2 ^ bits - 1 : Nat) : Rat) * 255 / (2 ^ bits - 1) = 255 := by
      rw [cast_last]
      field_simp
    rw [hbyte, htop]
    simp
    omega
  · -- on a level
    obtain ⟨k, rfl⟩ : ∃ k : Nat, m = k := Int.eq_ofNat_of_zero_le (by omega)
    have hk : (k : ℤ) ≤ 2 ^ bits - 1 := not_lt.1 hover
    have hfirst : 0 ≤ (k : Rat) * step bits := mul_nonneg k.cast_nonneg hstep.le
    have hlevel : (k : Rat) * step bits ≤ 255 := by
      rw [← hlast]
      refine mul_le_mul_of_nonneg_right ?_ hstep.le
      exact_mod_cast hk
    rw [Int.cast_natCast] at hlow hhigh
    have hn0 : -1 < n := by exact_mod_cast (by linarith : (-1 : Rat) < n)
    have hn255 : n < 256 := by exact_mod_cast (by linarith : (n : Rat) < 256)
    have hkbits : k < 2 ^ bits := by exact_mod_cast (by linarith : (k : ℤ) < 2 ^ bits)
    refine ⟨k, by omega, ?_⟩
    rw [hbyte, show max 0 (min n 255) = n by omega, hround, Int.cast_natCast, step_eq, mul_div_assoc]

end Level

/-! ## Palettes on the levels -/

namespace PaletteSet

/-- A lengthened list has at every place what it had there, or its last entry. -/
theorem getElem?_of_lengthened {β : Type} {n k : Nat} {xs : List β} {x : β} (h : (lengthened n xs)[k]? = some x) :
    xs[min k (xs.length - 1)]? = some x := by
  rw [lengthened, List.getElem?_append] at h
  split at h
  · rwa [show min k (xs.length - 1) = k by omega]
  · rw [show min k (xs.length - 1) = xs.length - 1 by omega, ← List.getLast?_eq_getElem?]
    cases hlast : xs.getLast? with
    | none => simp [hlast] at h
    | some y =>
      rw [hlast] at h
      simp only [Option.toList_some, List.flatMap_singleton] at h
      rw [List.eq_of_mem_replicate (List.mem_of_getElem? h)]

variable {α : Type} {s : PaletteSet α}

theorem color?_eq_toLists (p k : Nat) : s.color? p k = (s.toLists[p]?).bind fun cs => cs[k]? := by
  rw [color?_eq_bind, toLists, List.getElem?_map]
  cases s.palettes[p]? with
  | none => rfl
  | some v => simp

/-- Every slot of lengthened palettes has the colour of the same slot, or of the last one. -/
theorem color?_of_padded {n p k : Nat} {c : Rgb α} (h : (s.padded n).color? p k = some c) :
    s.color? p (min k (s.slots - 1)) = some c := by
  rw [color?_eq_toLists, toLists_padded, List.getElem?_map] at h
  rw [color?_eq_toLists]
  cases hcs : s.toLists[p]? with
  | none => simp [hcs] at h
  | some cs =>
    obtain ⟨v, -, rfl⟩ := List.mem_map.1 (List.mem_of_getElem? hcs)
    rw [hcs] at h
    have hc := getElem?_of_lengthened h
    rwa [Vector.length_toList] at hc

/-- The colours that are not reserved are on the levels of a bit depth. -/
def OnLevels (bits : Nat) (s : PaletteSet Rat) : Prop :=
  ∀ p k c, s.color? p k = some c → s.zero.reservedSlots ≤ k → ∀ x ∈ c.toList, Level.IsLevel (Level.step bits) x

theorem onLevels_reduce (bits : Nat) (s : PaletteSet Rat) : (Depth.reduce bits s).OnLevels bits := by
  intro p k c hc hk x hx
  rw [Depth.color?_reduce] at hc
  obtain ⟨d, -, rfl⟩ := Option.map_eq_some_iff.1 hc
  have hfree : ¬ k < s.zero.reservedSlots := not_lt.2 hk
  rw [if_neg hfree] at hx
  simp only [Rgb.map, Rgb.toList, List.mem_cons, List.not_mem_nil, or_false] at hx
  rcases hx with rfl | rfl | rfl <;> exact Level.isLevel_snapTo _ _

theorem OnLevels.padded {bits : Nat} {s : PaletteSet Rat} (h : s.OnLevels bits) (hslots : s.zero.reservedSlots < s.slots)
    (n : Nat) : (s.padded n).OnLevels bits := by
  intro p k c hc hk
  rw [padded_zero] at hk
  exact h p _ c (color?_of_padded hc) (by omega)

/-- The bytes of palettes on the levels. -/
theorem OnLevels.toBytes {bits : Nat} {s : PaletteSet Rat} (h : s.OnLevels bits) (hbits : 1 ≤ bits) :
    ∀ v ∈ s.palettes.map (Vector.map Rgb.toBytes), ∀ k : Fin s.slots, s.zero.reservedSlots ≤ k →
      ∀ x ∈ (v.get k).toList, Level.IsByte bits x := by
  intro v hv k hk x hx
  obtain ⟨u, hu, rfl⟩ := List.mem_map.1 hv
  obtain ⟨p, hp⟩ := List.mem_iff_getElem?.1 hu
  have hcolor : s.color? p k = some (u.get k) := by
    rw [color?_eq_bind, hp]
    exact Vector.getElem?_eq_getElem k.isLt
  have hbyte : (u.map Rgb.toBytes).get k = (u.get k).toBytes := Vector.getElem_map _ k.isLt
  rw [hbyte] at hx
  obtain ⟨y, hy, rfl⟩ : ∃ y ∈ (u.get k).toList, Scalar.toByte y = x := List.mem_map.1 hx
  exact Level.isByte_toByte hbits (h p k _ hcolor hk y hy)

end PaletteSet

/-! ## Runs -/

namespace Plan

variable {α γ : Type} [Scalar α] [OrderSource γ] {p : Plan α} {s : PaletteSet α}

/-- Palettes only get longer, and always have a slot that is not reserved. -/
theorem Reaches.reservedSlots_lt (h : p.Reaches s) : s.zero.reservedSlots < s.slots := by
  have hslots : p.settings.colorZero.initialSlots ≤ s.slots := by
    induction h with
    | start => exact (PaletteSet.ofSeeds_slots _ _ _ _).ge
    | moved q _ _ _ ih => exact ih.trans (PaletteSet.changeColor_slots _ _ _ _).ge
    | seeded _ _ ih => exact ih.trans (Nat.le_succ _)
    | reseeded q slot c _ ih => exact ih.trans (PaletteSet.changeColor_slots _ _ _ _).ge
    | recentred _ ih => exact ih.trans (Depth.recenter_sameShape ..).slots_eq.ge
    | reduced _ ih => exact ih
    | padded _ ih =>
      rw [PaletteSet.padded]
      split
      · exact ih.trans (Nat.le_add_right _ _)
      · exact ih
  have hzero : p.settings.colorZero.reservedSlots < p.settings.colorZero.initialSlots := by
    cases p.settings.colorZero <;> decide
  rw [h.zeroHolds.1]
  exact hzero.trans_le hslots

/-- A run that is not cancelled composes the palettes that all stages come to. -/
theorem runWith_composition {a : Audience α} {g : γ} (h : (p.runWith a g).composition.cancelled = false) :
    (p.runWith a g).composition = p.compose (p.finalSet g) false := by
  have hrun := Job.run_bind (forM (p.script (p.learner g)) (p.say a))
    (fun _ => pure (p.deepened (p.afterRefining (p.learner g)).set, (p.afterRefining (p.learner g)).learner))
    (Journal.empty.note p.sizes)
  rw [← optimise_eq] at hrun
  change StateT.run (ExceptT.run (p.optimise a (.start (Shuffler.start p.tiles.samples.size g).1
    (Shuffler.start p.tiles.samples.size g).2))) (Journal.empty.note p.sizes) = _ at hrun
  generalize StateT.run (ExceptT.run (forM (p.script (p.learner g)) (p.say a))) (Journal.empty.note p.sizes) = said at hrun
  unfold runWith at h ⊢
  dsimp only at h ⊢
  rw [hrun] at h ⊢
  rcases said with ⟨e | u, j⟩
  · cases h
  · rfl

/-- Whether or not there is anything to optimise, what a run composes without being cancelled was reduced last. -/
theorem run_composition {a : Audience α} {g : γ} (h : (p.run a g).composition.cancelled = false) :
    ∃ s, (p.run a g).composition = p.compose (Depth.reduce p.settings.bitsPerChannel s) false ∧
      p.Reaches (Depth.reduce p.settings.bitsPerChannel s) := by
  unfold run at h ⊢
  split
  · exact ⟨_, rfl, .reduced (.padded .start)⟩
  · rename_i hsome
    rw [if_neg hsome] at h
    have hreach := finalSet_reaches (p := p) g
    rw [runWith_composition h]
    obtain ⟨s, hs⟩ : ∃ s, p.finalSet g = Depth.reduce p.settings.bitsPerChannel s := by
      rw [finalSet, deepened]
      split
      · exact ⟨_, rfl⟩
      · rw [Depth.defaultPasses, Function.iterate_succ_apply', Depth.correctOnce]
        exact ⟨_, rfl⟩
    rw [hs] at hreach ⊢
    exact ⟨s, rfl, hreach⟩

/-- **The bit depth of a run.** In exact arithmetic all that is not reserved ends on the levels. -/
theorem run_levels {p : Plan Rat} (hbits : 1 ≤ p.settings.bitsPerChannel) {a : Audience Rat} {g : γ}
    (h : (p.run a g).composition.cancelled = false) :
    ∀ v ∈ (p.run a g).composition.palettes, ∀ k : Fin (p.run a g).composition.slots,
      p.settings.colorZero.reservedSlots ≤ k → ∀ x ∈ (v.get k).toList, Level.IsByte p.settings.bitsPerChannel x := by
  obtain ⟨s, hcomposition, hreach⟩ := run_composition h
  have hlevels := (PaletteSet.onLevels_reduce p.settings.bitsPerChannel s).padded hreach.reservedSlots_lt
    p.settings.colorsPerPalette
  have hbytes := hlevels.toBytes hbits
  rw [hreach.padded.zeroHolds.1] at hbytes
  rw [hcomposition]
  exact hbytes

end Plan

/-! ## Exact settings -/

/-- Settings with the rational numbers that their floating-point numbers stand for. -/
def Settings.exact (s : Settings Float) : Settings Rat :=
  { s with
    fractionOfPixels := Floats.value s.fractionOfPixels
    ditherWeight := Floats.value s.ditherWeight
    alpha := s.alpha.map Floats.value
    finalAlpha := s.finalAlpha.map Floats.value
    minColorFactor := Floats.value s.minColorFactor
    minPaletteFactor := Floats.value s.minPaletteFactor }

theorem Draft.bits_mem {d : Draft} {s : Settings Float} (h : d.settings = .ok s) :
    2 ≤ s.bitsPerChannel ∧ s.bitsPerChannel ≤ 8 := by
  obtain ⟨hbits, -⟩ := settings_fields h
  rw [hbits]
  exact natural_mem (f := .bitsPerChannel) rfl rfl (by decide) (checkBounded_of_settings h _)

/-- **Bit depth.** Run an image with checked settings in exact arithmetic, with any tiling and reserved pixels, any audience,
any source of orders and any k-means. If the run is not cancelled, every channel of every slot is a level of the bit depth,
rounded to a byte; under a transparent policy this is so for all slots but the first. -/
theorem quantize_levels {γ : Type} [OrderSource γ] {d : Draft} {s : Settings Float} (hs : d.settings = .ok s) (im : Image)
    (t : Tiling im.height im.width) (r : Raster Bool im.height im.width) (means : Cluster.Means Rat) (a : Audience Rat)
    (g : γ) (h : ((Plan.make s.exact im t r means).run a g).composition.cancelled = false) :
    ∀ v ∈ ((Plan.make s.exact im t r means).run a g).composition.palettes,
      ∀ k : Fin ((Plan.make s.exact im t r means).run a g).composition.slots, (s.colorZero.isTransparent → k.val ≠ 0) →
        ∀ x ∈ (v.get k).toList, ∃ n : Nat, n ≤ 2 ^ s.bitsPerChannel - 1 ∧
          (x.toNat : ℤ) = round ((n : ℚ) * 255 / (2 ^ s.bitsPerChannel - 1)) := by
  have hbits := Draft.bits_mem hs
  intro v hv k hk
  refine Plan.run_levels (p := Plan.make s.exact im t r means) (Nat.le_of_succ_le hbits.1) h v hv k ?_
  change s.colorZero.reservedSlots ≤ k
  rw [ColorZero.reservedSlots]
  split
  · exact Nat.one_le_iff_ne_zero.2 (hk ‹_›)
  · exact Nat.zero_le _

/-- Every column is a tile. -/
def Tiling.columns {height width : Nat} (h : 0 < height) : Tiling height width :=
  ⟨1, height, 1, width, Nat.one_pos, h, Nat.one_mul height, Nat.mul_one width⟩

/-- The plan of a small image with no reserved pixels. -/
def Plan.columns (s : Settings Float) : Plan Rat :=
  .make s.exact ⟨2, 2, Buffer.small.pixels 2 2 3⟩ (.columns Nat.two_pos) (.ofFn fun _ _ => false) Cluster.lloyd

/-- A run of the small image, which nobody cancels. -/
theorem quantize_levels_columns :
    ∃ (s : Settings Float) (c : Composition Rat), Draft.small.settings = .ok s ∧
      c = ((Plan.columns s).run ⟨.never, false⟩ (default : Generator)).composition ∧ c.cancelled = false ∧
      ∀ v ∈ c.palettes, ∀ k : Fin c.slots, k.val ≠ 0 → ∀ x ∈ (v.get k).toList, ∃ n : Nat,
        n ≤ 2 ^ s.bitsPerChannel - 1 ∧ (x.toNat : ℤ) = round ((n : ℚ) * 255 / (2 ^ s.bitsPerChannel - 1)) := by
  obtain ⟨s, hs, -⟩ := Draft.small_settings
  have hdone := (Plan.columns s).run_never_not_cancelled false (default : Generator)
  refine ⟨s, _, hs, rfl, hdone, fun v hv k hk => ?_⟩
  exact quantize_levels hs ⟨2, 2, Buffer.small.pixels 2 2 3⟩ (.columns Nat.two_pos) (.ofFn fun _ _ => false)
    Cluster.lloyd ⟨.never, false⟩ default hdone v hv k fun _ => hk

end Tessera
