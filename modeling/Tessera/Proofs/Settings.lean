import Mathlib
import Tessera.Run.Quantize
/-!
# What a checked draft promises

A draft that gives settings has passed its check, so its whole numbers lie in their bounds and every palette has two slots
or more to optimise (`Draft.inRange`). Settings in range, an image that they cut evenly and a key colour that is one make
a plan (`Draft.planWith_eq_ok`).
-/

namespace Tessera

/-- What is bound gives a result exactly when both parts do. -/
theorem bind_eq_ok {ε β γ : Type} {x : Except ε β} {f : β → Except ε γ} {c : γ} :
    (x >>= f) = .ok c ↔ ∃ b, x = .ok b ∧ f b = .ok c := by
  cases x with
  | error e => simp [bind, Except.bind]
  | ok b => simp [bind, Except.bind]

theorem forM_eq_ok {ε β : Type} {xs : List β} {f : β → Except ε Unit} (h : xs.forM f = .ok ()) :
    ∀ x ∈ xs, f x = .ok () := by
  induction xs with
  | nil => nofun
  | cons y ys ih =>
    obtain ⟨_, hy, hys⟩ := bind_eq_ok.1 h
    exact List.forall_mem_cons.2 ⟨hy, ih hys⟩

theorem reject_ne_ok {β : Type} (e : Error) (b : β) : (reject e : Result β) ≠ .ok b := by
  rw [reject]
  split <;> intro h <;> cases h

/-! ## Bounded fields -/

/-- The sizes of settings are such that tiles, palettes and slots exist. -/
structure Settings.InRange {α : Type} (s : Settings α) : Prop where
  tileWidth_pos : 0 < s.tileWidth
  tileWidth_le : s.tileWidth ≤ 32
  tileHeight_pos : 0 < s.tileHeight
  tileHeight_le : s.tileHeight ≤ 32
  numPalettes_pos : 0 < s.numPalettes
  slots_le : s.colorZero.reservedSlots + 2 ≤ s.colorsPerPalette

namespace Draft

variable {d : Draft} {s : Settings Float}

theorem settings_validate (h : d.settings = .ok s) : d.validate = .ok () := by
  obtain ⟨_, hv, -⟩ := bind_eq_ok.1 h
  exact hv

theorem checkBounded_of_settings (h : d.settings = .ok s) (f : Field) : checkBounded f (d.get f) = .ok () := by
  obtain ⟨_, hall, -⟩ := bind_eq_ok.1 (settings_validate h)
  exact forM_eq_ok hall f (by cases f <;> decide)

theorem checkRange_iff {f : Field} {lo hi v : Value} :
    checkRange f lo hi v = .ok () ↔ v.numberLe hi = true ∧ lo.numberLe v = true := by
  rw [checkRange, ← Bool.and_eq_true]
  split
  · exact ⟨fun _ => ‹_›, fun _ => rfl⟩
  · exact ⟨fun h => absurd h (reject_ne_ok _ _), fun h => absurd h ‹_›⟩

/-- A whole number that passes its check lies within the bounds of its field. -/
theorem natural_mem {f : Field} {lo hi first : Int} (hb : f.bounds? = some (.int lo, .int hi))
    (hf : f.default = .int first) (hfirst : lo ≤ first ∧ first ≤ hi) (h : checkBounded f (d.get f) = .ok ()) :
    lo.toNat ≤ d.natural f ∧ d.natural f ≤ hi.toNat := by
  have hwhole : f.isWhole = true := by simp [Field.isWhole, hf]
  simp only [checkBounded, hb] at h
  rw [natural, hf]
  split at h
  · rename_i hn
    simp only [hn]
    omega
  · rename_i n hn
    have hr := checkRange_iff.1 h
    simp only [Value.numberLe, Number.ofValue, Number.le, pure, Except.pure, decide_eq_true_eq] at hr
    simp only [hn]
    omega
  · rw [if_pos hwhole] at h
    exact absurd h (reject_ne_ok _ _)
  · exact absurd h (reject_ne_ok _ _)

theorem mode_eq_ok_iff {m : Dither.Mode} : d.mode = .ok m ↔ d.get .dither = .mode m := by
  rw [mode]
  split <;> simp_all [pure, Except.pure, reject_ne_ok]

theorem pattern_eq_ok_iff {p : Dither.Pattern} : d.pattern = .ok p ↔ d.get .ditherPattern = .pattern p := by
  rw [pattern]
  split <;> simp_all [pure, Except.pure, reject_ne_ok]

theorem zero_eq_ok_iff {z : ColorZero} : d.zero = .ok z ↔ d.get .colorZero = .zero z := by
  rw [zero]
  split <;> simp_all [pure, Except.pure, reject_ne_ok]

/-- The parts of a draft that its settings are made of. -/
structure Gives (d : Draft) (s : Settings Float) : Prop where
  mode : d.mode = .ok s.dither
  pattern : d.pattern = .ok s.ditherPattern
  zero : d.zero = .ok s.colorZero
  tileWidth : s.tileWidth = d.natural .tileWidth
  tileHeight : s.tileHeight = d.natural .tileHeight
  numPalettes : s.numPalettes = d.natural .numPalettes
  colorsPerPalette : s.colorsPerPalette = d.natural .colorsPerPalette

theorem settings_gives (h : d.settings = .ok s) : d.Gives s := by
  obtain ⟨_, -, h⟩ := bind_eq_ok.1 h
  obtain ⟨dither, hmode, h⟩ := bind_eq_ok.1 h
  obtain ⟨pattern, hpattern, h⟩ := bind_eq_ok.1 h
  obtain ⟨zero, hzero, h⟩ := bind_eq_ok.1 h
  obtain ⟨shared, -, h⟩ := bind_eq_ok.1 h
  obtain ⟨transparent, -, h⟩ := bind_eq_ok.1 h
  cases h
  exact ⟨hmode, hpattern, hzero, rfl, rfl, rfl, rfl⟩

theorem settings_fields (h : d.settings = .ok s) :
    s.bitsPerChannel = d.natural .bitsPerChannel ∧ s.alpha = d.scalar? .alpha ∧ s.finalAlpha = d.scalar? .finalAlpha := by
  simp only [settings, bind_eq_ok] at h
  obtain ⟨_, -, _, -, _, -, _, -, _, -, _, -, hmake⟩ := h
  cases hmake
  exact ⟨rfl, rfl, rfl⟩

/-- The check leaves two slots or more to optimise. -/
theorem optimisedSlots_of_settings (h : d.settings = .ok s) : s.colorZero.reservedSlots + 2 ≤ s.colorsPerPalette := by
  have hgives := settings_gives h
  obtain ⟨_, -, hv⟩ := bind_eq_ok.1 (settings_validate h)
  obtain ⟨_, -, hv⟩ := bind_eq_ok.1 hv
  obtain ⟨_, -, hv⟩ := bind_eq_ok.1 hv
  obtain ⟨zero, hzero, hv⟩ := bind_eq_ok.1 hv
  obtain ⟨_, -, hv⟩ := bind_eq_ok.1 hv
  obtain ⟨_, -, hv⟩ := bind_eq_ok.1 hv
  obtain ⟨⟨colors, slots⟩, hslots, hv⟩ := bind_eq_ok.1 hv
  rw [hgives.zero] at hzero
  cases hzero
  have htwo : 2 ≤ slots := by
    by_contra hlt
    simp only [if_pos (show slots < 2 by omega)] at hv
    cases hv
  rw [optimisedSlots] at hslots
  split at hslots
  · rename_i n hn
    cases hslots
    rw [hgives.colorsPerPalette, natural, hn]
    dsimp only
    omega
  · cases hslots

/-- **Settings of a checked draft are in range.** -/
theorem inRange (h : d.settings = .ok s) : s.InRange := by
  have hgives := settings_gives h
  have hwidth := natural_mem (f := .tileWidth) rfl rfl (by decide) (checkBounded_of_settings h _)
  have hheight := natural_mem (f := .tileHeight) rfl rfl (by decide) (checkBounded_of_settings h _)
  have hpalettes := natural_mem (f := .numPalettes) rfl rfl (by decide) (checkBounded_of_settings h _)
  rw [← hgives.tileWidth] at hwidth
  rw [← hgives.tileHeight] at hheight
  rw [← hgives.numPalettes] at hpalettes
  exact ⟨hwidth.1, hwidth.2, hheight.1, hheight.2, hpalettes.1, optimisedSlots_of_settings h⟩

/-- A pattern that its family registers is handed out. -/
theorem usedPattern_eq_ok (h : d.settings = .ok s) (hp : s.dither = .off ∨ s.ditherPattern.isRegistered) :
    ∃ pattern, d.usedPattern = .ok pattern := by
  have hmode := mode_eq_ok_iff.1 (settings_gives h).mode
  have hpattern := pattern_eq_ok_iff.1 (settings_gives h).pattern
  rw [usedPattern]
  split
  · exact ⟨_, rfl⟩
  · rename_i hoff
    have hreg := hp.resolve_left fun h0 => hoff (by rw [hmode, h0])
    refine ⟨some s.ditherPattern, ?_⟩
    rw [Dither.Pattern.isRegistered] at hreg
    simp only [hpattern, Dither.Pattern.registered, Dither.Family.lookup, hreg, if_true]
    rfl

theorem need_eq_ok (h : d.missing = []) (fields : List Field) : d.need fields = .ok () := by
  rw [need, if_neg (by simp [h])]
  rfl

end Draft

/-! ## Tilings and reserved pixels -/

/-- The check of a tile size in bounds is that of the image. -/
theorem Tiling.check_eq (height width : Nat) {tileWidth tileHeight : Nat} (hw : 0 < tileWidth ∧ tileWidth ≤ 32)
    (hh : 0 < tileHeight ∧ tileHeight ≤ 32) :
    Tiling.check width height tileWidth tileHeight =
      if (width : Int) ≤ 0 ∨ (height : Int) ≤ 0 then .error (.emptyImage (.int width) (.int height))
      else if (width : Int) % tileWidth ≠ 0 ∨ (height : Int) % tileHeight ≠ 0 then
        .error (.unevenTiles (.int width) (.int height) (.int tileWidth) (.int tileHeight))
      else pure () := by
  have hsize : ∀ name (n : Nat), 0 < n ∧ n ≤ 32 → Tiling.checkSize name n = .ok () := by
    intro name n hn
    rw [Tiling.checkSize, if_pos ⟨by omega, by rw [Tiling.maxSize]; omega⟩]
    rfl
  rw [Tiling.check, hsize _ _ hw, hsize _ _ hh]
  rfl

/-- A tile size in bounds that divides an image makes a tiling. -/
theorem Tiling.make_eq_ok {height width tileWidth tileHeight : Nat} (hw : 0 < tileWidth ∧ tileWidth ≤ 32)
    (hh : 0 < tileHeight ∧ tileHeight ≤ 32) (hpos : 0 < height ∧ 0 < width) (hdh : tileHeight ∣ height)
    (hdw : tileWidth ∣ width) :
    ∃ t, Tiling.make height width tileWidth tileHeight = .ok t ∧ t.tileWidth = tileWidth ∧ t.tileHeight = tileHeight := by
  have hcheck : Tiling.check width height tileWidth tileHeight = .ok () := by
    have h1 : ¬ ((width : Int) ≤ 0 ∨ (height : Int) ≤ 0) := by omega
    have h2 : ¬ ((width : Int) % tileWidth ≠ 0 ∨ (height : Int) % tileHeight ≠ 0) := by
      rw [not_or, not_not, not_not]
      exact ⟨Int.emod_eq_zero_of_dvd (by exact_mod_cast hdw), Int.emod_eq_zero_of_dvd (by exact_mod_cast hdh)⟩
    rw [Tiling.check_eq height width hw hh, if_neg h1, if_neg h2]
    rfl
  rw [Tiling.make, hcheck]
  simp only [bind, Except.bind, Int.toNat_natCast, Tiling.ofSizes?]
  rw [dif_pos ⟨hw.1, hh.1, Nat.div_mul_cancel hdh, Nat.div_mul_cancel hdw⟩]
  exact ⟨_, rfl, rfl, rfl⟩

/-- All channels are numbers of bytes. -/
def Rgb.IsBytes (c : Rgb Int) : Prop := ∀ n ∈ c.toList, 0 ≤ n ∧ n ≤ 255

instance (c : Rgb Int) : Decidable c.IsBytes := inferInstanceAs (Decidable (∀ n ∈ c.toList, 0 ≤ n ∧ n ≤ 255))

/-- Whether settings keep a pixel for colour zero: by its alpha, by its colour, or never. -/
def Settings.reserves {α : Type} (s : Settings α) (x : Pixel) : Bool :=
  match s.colorZero with
  | .transparentAlpha => decide (x.alpha.toNat < 128)
  | .transparentKey => decide (x.color.map (fun v => (v.toNat : Int)) = s.transparentColor)
  | _ => false

namespace Image

theorem keyByte_eq_ok {n : Int} (h : 0 ≤ n ∧ n ≤ 255) : ∃ v : UInt8, keyByte n = .ok v ∧ (v.toNat : Int) = n := by
  refine ⟨n.toNat.toUInt8, by rw [keyByte, if_pos h]; rfl, ?_⟩
  have : n.toNat < 256 := by omega
  rw [Nat.toUInt8, UInt8.toNat_ofNat_of_lt' this]
  omega

theorem keyColor_eq_ok {c : Rgb Int} (h : c.IsBytes) :
    ∃ k : Rgb UInt8, keyColor c = .ok k ∧ k.map (fun v => (v.toNat : Int)) = c := by
  obtain ⟨r, hr, hr'⟩ := keyByte_eq_ok (h c.r (by simp [Rgb.toList]))
  obtain ⟨g, hg, hg'⟩ := keyByte_eq_ok (h c.g (by simp [Rgb.toList]))
  obtain ⟨b, hb, hb'⟩ := keyByte_eq_ok (h c.b (by simp [Rgb.toList]))
  refine ⟨⟨r, g, b⟩, by rw [keyColor, hr, hg, hb]; rfl, ?_⟩
  rw [Rgb.map, hr', hg', hb']

/-- The reserved pixels of an image are those that the settings reserve. -/
theorem reserved_eq_ok {α : Type} {s : Settings α} (im : Image) (hkey : s.transparentColor.IsBytes) :
    ∃ r, im.reserved s.colorZero s.transparentColor = .ok r ∧ ∀ y x, r.get y x = s.reserves (im.pixels.get y x) := by
  cases hz : s.colorZero with
  | unique => exact ⟨_, rfl, fun y x => by simp [Settings.reserves, hz]⟩
  | shared => exact ⟨_, rfl, fun y x => by simp [Settings.reserves, hz]⟩
  | transparentAlpha => exact ⟨_, rfl, fun y x => by simp [Settings.reserves, hz, alphaThreshold, UInt8.lt_iff_toNat_lt]⟩
  | transparentKey =>
    obtain ⟨k, hk, hbytes⟩ := keyColor_eq_ok hkey
    refine ⟨_, by rw [reserved, hk]; rfl, fun y x => ?_⟩
    have hiff : ∀ c : Rgb UInt8, c = k ↔ c.map (fun v => (v.toNat : Int)) = s.transparentColor := by
      intro c
      rw [← hbytes]
      refine ⟨fun h => by rw [h], fun h => ?_⟩
      obtain ⟨r, g, b⟩ := c
      obtain ⟨r', g', b'⟩ := k
      simp only [Rgb.map, Rgb.mk.injEq, Nat.cast_inj, UInt8.toNat_inj] at h ⊢
      exact h
    simp [Settings.reserves, hz, hiff]

end Image

/-! ## Plans and runs of drafts -/

namespace Draft

variable {d : Draft} {s : Settings Float} {b : Buffer} {im : Image}

/-- A draft and a buffer that pass all checks make a plan. -/
theorem planWith_eq_ok (means : Cluster.Means Float) (hs : d.settings = .ok s) (hm : d.missing = [])
    (hp : s.dither = .off ∨ s.ditherPattern.isRegistered) (hkey : s.transparentColor.IsBytes) (hb : b.toImage = .ok im)
    (hpos : 0 < im.height ∧ 0 < im.width) (hdh : s.tileHeight ∣ im.height) (hdw : s.tileWidth ∣ im.width) :
    ∃ t r, d.planWith means b = .ok (Plan.make s im t r means) ∧ t.tileWidth = s.tileWidth ∧ t.tileHeight = s.tileHeight ∧
      ∀ y x, r.get y x = s.reserves (im.pixels.get y x) := by
  have hrange := inRange hs
  obtain ⟨pattern, hpattern⟩ := usedPattern_eq_ok hs hp
  obtain ⟨t, ht, htw, hth⟩ := Tiling.make_eq_ok ⟨hrange.tileWidth_pos, hrange.tileWidth_le⟩
    ⟨hrange.tileHeight_pos, hrange.tileHeight_le⟩ hpos hdh hdw
  obtain ⟨r, hr, hreserves⟩ := im.reserved_eq_ok hkey
  refine ⟨t, r, ?_, htw, hth, hreserves⟩
  simp only [planWith, hs, hpattern, hb, need_eq_ok hm, ht, hr, bind, Except.bind]
  rfl

theorem needToCompose_eq_ok {workers : Value} {n : Number} (hm : d.missing = []) (hw : Number.ofValue workers = .ok n)
    (p : Plan Float) : d.needToCompose p workers = .ok () := by
  simp only [needToCompose, hw, need_eq_ok hm, bind, Except.bind]
  split <;> rfl

/-- A plan with nothing missing is run. -/
theorem quantizeWith_eq_ok {γ : Type} [OrderSource γ] {means : Cluster.Means Float} {p : Plan Float} {source : Result γ}
    {workers : Value} {n : Number} {g : γ} (hp : d.planWith means b = .ok p) (hm : d.missing = [])
    (hw : Number.ofValue workers = .ok n) (hg : source = .ok g) (a : Audience Float) :
    d.quantizeWith means b source workers a = .ok (p, p.run a g) := by
  simp only [quantizeWith, hp, hg, needToCompose_eq_ok hm hw, need_eq_ok hm, bind, Except.bind, Plan.run]
  split
  · rfl
  · split <;> rfl

end Draft

/-! ## A small image -/

/-- A draft for small images: tiles of one by two pixels, and two palettes of four slots, of which the first is kept for
pixels of one colour. -/
def Draft.small : Draft :=
  Draft.initial.setAll [(.tileWidth, .int 1), (.tileHeight, .int 2), (.numPalettes, .int 2), (.colorsPerPalette, .int 4),
    (.colorZero, .zero .transparentKey), (.transparentColor, .text "#102030")]

/-- Two by two pixels, one of them of the colour that the draft reserves. -/
def Buffer.small : Buffer :=
  ⟨true, [2, 2, 3], #[16, 32, 48, 200, 10, 10, 40, 90, 250, 0, 0, 7]⟩

theorem Draft.small_settings :
    ∃ s, Draft.small.settings = .ok s ∧ s.tileWidth = 1 ∧ s.tileHeight = 2 ∧ s.dither = .off ∧
      s.colorZero = .transparentKey ∧ s.transparentColor = ⟨16, 32, 48⟩ := by
  have h : (Draft.small.settings.toOption.map fun s =>
      (s.tileWidth, s.tileHeight, s.dither, s.colorZero, s.transparentColor)) =
      some (1, 2, .off, .transparentKey, ⟨16, 32, 48⟩) := by decide +kernel
  cases hs : Draft.small.settings with
  | error e => rw [hs] at h; cases h
  | ok s =>
    rw [hs] at h
    simp only [Except.toOption, Option.map_some, Option.some.injEq, Prod.mk.injEq] at h
    exact ⟨s, rfl, h⟩

theorem Draft.small_plan :
    ∃ p, Draft.small.plan Buffer.small = .ok p ∧ p.tiles.samples.size = 3 ∧ p.settings.colorsPerPalette = 4 ∧
      p.settings.colorZero = .transparentKey ∧ p.settings.replaceIterations = 10 ∧ p.block = 1 := by
  have h : ((Draft.small.plan Buffer.small).toOption.map fun p =>
      (p.tiles.samples.size, p.settings.colorsPerPalette, p.settings.colorZero, p.settings.replaceIterations, p.block)) =
      some (3, 4, .transparentKey, 10, 1) := by decide +kernel
  cases hp : Draft.small.plan Buffer.small with
  | error e => rw [hp] at h; cases h
  | ok p =>
    rw [hp] at h
    simp only [Except.toOption, Option.map_some, Option.some.injEq, Prod.mk.injEq] at h
    exact ⟨p, rfl, h⟩

end Tessera
