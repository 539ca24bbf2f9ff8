import Mathlib
import Tessera.Proofs.Magnitudes
import Tessera.Run.Quantize
/-!
# What is refused, and when

Quantizing is refused for one of four reasons, which are looked for in one order before any work begins
(`Draft.firstRefusal`): the settings, the dither pattern, the buffer, and the size of the image. If there is none of them,
quantizing comes to a result. The library works with total functions, which have a default wherever something could be
missing, so a result alone does not say that nothing was. Quantizing under guard says it (`Guarded.quantize`): it can be
refused at every lookup, choice and division, and keeps its journal when it is, and it comes to the same composition with
the same journal (`quantize_failsFast`).
-/

namespace Tessera

/-! ## The reasons -/

/-- The error of a check that fails. -/
def refusalOf {β : Type} (x : Result β) : Option Error :=
  match x with
  | .ok _ => none
  | .error e => some e

namespace Buffer

/-- Bytes in rows and columns, with three or four channels. -/
def HasPixels (b : Buffer) : Prop := b.isByte = true ∧ b.shape.length = 3 ∧ (b.shape[2]? = some 3 ∨ b.shape[2]? = some 4)

instance (b : Buffer) : Decidable b.HasPixels := inferInstanceAs (Decidable (_ ∧ _))

/-- The number of rows. -/
def rows (b : Buffer) : Nat := b.shape.getD 0 0

/-- The number of columns. -/
def columns (b : Buffer) : Nat := b.shape.getD 1 0

/-- A buffer without pixels is refused. -/
def refusal (b : Buffer) : Option Error := if b.HasPixels then none else some .pixelBuffer

end Buffer

namespace Draft

/-- With dithering, a pattern that its family does not hand out is refused. -/
def patternRefusal (d : Draft) : Option Error :=
  match d.mode, d.pattern with
  | .ok m, .ok p => if m ≠ .off ∧ ¬ p.isRegistered then some (.foreignPattern p p.family) else none
  | _, _ => none

/-- An image without pixels, or one that is no multiple of the tile size, is refused. -/
def sizeRefusal (d : Draft) (b : Buffer) : Option Error :=
  if b.columns = 0 ∨ b.rows = 0 then some (.emptyImage (.int b.columns) (.int b.rows))
  else if d.natural .tileWidth ∣ b.columns ∧ d.natural .tileHeight ∣ b.rows then none
  else some (.unevenTiles (.int b.columns) (.int b.rows) (.int (d.natural .tileWidth)) (.int (d.natural .tileHeight)))

/-- The first reason to refuse a draft with a buffer. -/
def firstRefusal (d : Draft) (b : Buffer) : Option Error :=
  (refusalOf d.validate).or (d.patternRefusal.or (b.refusal.or (d.sizeRefusal b)))

end Draft

/-! ## Checks one by one -/

namespace Buffer

variable {b : Buffer}

theorem toImage_of_hasPixels (h : b.HasPixels) : ∃ im, b.toImage = .ok im ∧ im.height = b.rows ∧ im.width = b.columns := by
  obtain ⟨hbyte, hrank, hchannels⟩ := h
  obtain ⟨height, width, channels, hshape⟩ := List.length_eq_three.1 hrank
  rw [hshape] at hchannels
  rw [toImage, rows, columns, hbyte, hshape]
  rcases hchannels with h | h
  · cases h
    exact ⟨_, rfl, rfl, rfl⟩
  · cases h
    exact ⟨_, rfl, rfl, rfl⟩

theorem HasPixels.area_le (h : b.HasPixels) : b.rows * b.columns ≤ Tensor.cells b.shape := by
  obtain ⟨-, hrank, hchannels⟩ := h
  obtain ⟨height, width, channels, hshape⟩ := List.length_eq_three.1 hrank
  rw [hshape] at hchannels
  have hpos : 0 < channels := by
    rcases hchannels with h | h
    · cases h
      decide
    · cases h
      decide
  rw [rows, columns, hshape]
  show height * width ≤ height * (width * (channels * 1))
  rw [Nat.mul_one, ← Nat.mul_assoc]
  exact Nat.le_mul_of_pos_right _ hpos

theorem toImage_of_not_hasPixels (h : ¬ b.HasPixels) : b.toImage = .error .pixelBuffer := by
  rw [toImage]
  split
  · rename_i hbyte hshape
    exact absurd ⟨hbyte, by simp [hshape], by simp [hshape]⟩ h
  · rename_i hbyte hshape
    exact absurd ⟨hbyte, by simp [hshape], by simp [hshape]⟩ h
  · rfl

end Buffer

namespace Tiling

variable (height width : Nat) {tileWidth tileHeight : Nat}

/-- With a tile size in bounds, an image without pixels makes no tiling, and neither does one that is no multiple. -/
theorem make_eq_error (hw : 0 < tileWidth ∧ tileWidth ≤ 32) (hh : 0 < tileHeight ∧ tileHeight ≤ 32) :
    (width = 0 ∨ height = 0 →
      Tiling.make height width tileWidth tileHeight = .error (.emptyImage (.int width) (.int height))) ∧
    (¬ (width = 0 ∨ height = 0) → ¬ (tileWidth ∣ width ∧ tileHeight ∣ height) →
      Tiling.make height width tileWidth tileHeight =
        .error (.unevenTiles (.int width) (.int height) (.int tileWidth) (.int tileHeight))) := by
  rw [Tiling.make, Tiling.check_eq height width hw hh]
  constructor
  · intro hempty
    rw [if_pos (by omega)]
    rfl
  · intro hne huneven
    have hrest : (width : Int) % tileWidth ≠ 0 ∨ (height : Int) % tileHeight ≠ 0 := by
      by_contra hdvd
      rw [not_or, not_not, not_not] at hdvd
      exact huneven ⟨by exact_mod_cast Int.dvd_of_emod_eq_zero hdvd.1, by exact_mod_cast Int.dvd_of_emod_eq_zero hdvd.2⟩
    rw [if_neg (by omega), if_pos hrest]
    rfl

end Tiling

namespace Draft

variable {d : Draft} {b : Buffer}

theorem settings_of_validate (h : d.validate = .ok ()) : ∃ s, d.settings = .ok s := by
  have hvalidate := h
  simp only [validate, bind_eq_ok] at h
  obtain ⟨_, -, mode, hmode, pattern, hpattern, zero, hzero, shared, hshared, transparent, htransparent, -⟩ := h
  simp only [settings, hvalidate, hmode, hpattern, hzero, hshared, htransparent, bind, Except.bind]
  exact ⟨_, rfl⟩

theorem settings_transparentColor {s : Settings Float} (h : d.settings = .ok s) :
    d.transparentColor = .ok s.transparentColor := by
  simp only [settings, bind_eq_ok] at h
  obtain ⟨_, -, _, -, _, -, _, -, _, -, transparent, htransparent, hmake⟩ := h
  cases hmake
  exact htransparent

/-- Dithering with a pattern that its family does not hand out. -/
theorem usedPattern_eq_error {s : Settings Float} (h : d.settings = .ok s) (hdither : s.dither ≠ .off)
    (hforeign : ¬ s.ditherPattern.isRegistered) :
    d.usedPattern = .error (.foreignPattern s.ditherPattern s.ditherPattern.family) := by
  have hmode := mode_eq_ok_iff.1 (settings_gives h).mode
  have hpattern := pattern_eq_ok_iff.1 (settings_gives h).pattern
  rw [usedPattern]
  split
  · rename_i hoff
    rw [hmode, Value.mode.injEq] at hoff
    exact absurd hoff hdither
  · rw [Dither.Pattern.isRegistered] at hforeign
    rw [hpattern, Dither.Pattern.registered, Dither.Family.lookup, if_neg hforeign]
    rfl

/-- The sizes are checked last. -/
theorem plan_sizeRefusal (means : Cluster.Means Float) {s : Settings Float} {im : Image} (hm : d.missing = [])
    (hs : d.settings = .ok s) (hregistered : s.dither = .off ∨ s.ditherPattern.isRegistered) (hkey : s.transparentColor.IsBytes)
    (him : b.toImage = .ok im) (hheight : im.height = b.rows) (hwidth : im.width = b.columns) :
    (∃ e, d.sizeRefusal b = some e ∧ d.planWith means b = .error e) ∨
      (d.sizeRefusal b = none ∧ 0 < im.height ∧ 0 < im.width ∧ ∃ t r, d.planWith means b = .ok (Plan.make s im t r means)) := by
  have hgives := settings_gives hs
  have hrange := inRange hs
  obtain ⟨pattern, hpattern⟩ := usedPattern_eq_ok hs hregistered
  obtain ⟨hempty, huneven⟩ := Tiling.make_eq_error im.height im.width ⟨hrange.tileWidth_pos, hrange.tileWidth_le⟩
    ⟨hrange.tileHeight_pos, hrange.tileHeight_le⟩
  rw [sizeRefusal, ← hgives.tileWidth, ← hgives.tileHeight, ← hheight, ← hwidth]
  by_cases hzero : im.width = 0 ∨ im.height = 0
  · rw [if_pos hzero]
    refine Or.inl ⟨_, rfl, ?_⟩
    simp only [planWith, hs, hpattern, him, need_eq_ok hm, hempty hzero, bind, Except.bind]
  rw [if_neg hzero]
  by_cases hdvd : s.tileWidth ∣ im.width ∧ s.tileHeight ∣ im.height
  · rw [if_pos hdvd]
    obtain ⟨t, r, hplan, -⟩ := planWith_eq_ok means hs hm hregistered hkey him ⟨by omega, by omega⟩ hdvd.2 hdvd.1
    exact Or.inr ⟨rfl, by omega, by omega, t, r, hplan⟩
  · rw [if_neg hdvd]
    refine Or.inl ⟨_, rfl, ?_⟩
    simp only [planWith, hs, hpattern, him, need_eq_ok hm, huneven hzero hdvd, bind, Except.bind]

/-- **The first reason counts.** A draft and a buffer that give a reason make no plan, and its error is that of the first
one; without a reason they make a plan of an image that has pixels. -/
theorem plan_firstRefusal (means : Cluster.Means Float) (hm : d.missing = [])
    (hkey : ∀ c, d.transparentColor = .ok c → c.IsBytes) :
    (∃ e, d.firstRefusal b = some e ∧ d.planWith means b = .error e) ∨
      (d.firstRefusal b = none ∧ b.HasPixels ∧ ∃ s im t r, d.settings = .ok s ∧
        d.planWith means b = .ok (Plan.make s im t r means) ∧
        im.height = b.rows ∧ im.width = b.columns ∧ 0 < im.height ∧ 0 < im.width) := by
  rw [firstRefusal]
  cases hvalidate : d.validate with
  | error e =>
    refine Or.inl ⟨e, rfl, ?_⟩
    simp only [planWith, settings, hvalidate, bind, Except.bind]
  | ok _ =>
    obtain ⟨s, hs⟩ := settings_of_validate hvalidate
    have hrefusal : d.patternRefusal = if s.dither ≠ .off ∧ ¬ s.ditherPattern.isRegistered
        then some (.foreignPattern s.ditherPattern s.ditherPattern.family) else none := by
      rw [patternRefusal, (settings_gives hs).mode, (settings_gives hs).pattern]
    rw [refusalOf, Option.none_or, hrefusal]
    by_cases hforeign : s.dither ≠ .off ∧ ¬ s.ditherPattern.isRegistered
    · rw [if_pos hforeign]
      refine Or.inl ⟨_, rfl, ?_⟩
      simp only [planWith, hs, usedPattern_eq_error hs hforeign.1 hforeign.2, bind, Except.bind]
    have hregistered : s.dither = .off ∨ s.ditherPattern.isRegistered := by
      by_contra h
      exact hforeign (not_or.1 h)
    rw [if_neg hforeign, Option.none_or, Buffer.refusal]
    by_cases hpixels : b.HasPixels
    · rw [if_pos hpixels, Option.none_or]
      obtain ⟨im, him, hheight, hwidth⟩ := Buffer.toImage_of_hasPixels hpixels
      rcases plan_sizeRefusal means hm hs hregistered (hkey _ (settings_transparentColor hs)) him hheight hwidth with
        hsize | ⟨hsize, hrows, hcolumns, t, r, hplan⟩
      · exact Or.inl hsize
      · exact Or.inr ⟨hsize, hpixels, s, im, t, r, hs, hplan, hheight, hwidth, hrows, hcolumns⟩
    · obtain ⟨pattern, hpattern⟩ := usedPattern_eq_ok hs hregistered
      rw [if_neg hpixels]
      refine Or.inl ⟨_, rfl, ?_⟩
      simp only [planWith, hs, hpattern, Buffer.toImage_of_not_hasPixels hpixels, bind, Except.bind]

end Draft

/-! ## Plans that can be carried out -/

/-- A plan for checked settings and an image that has pixels, and not more than an array has elements, with a lawful
k-means. -/
theorem Plan.make_sound {d : Draft} {s : Settings Float} {im : Image} {means : Cluster.Means Float}
    (hmeans : means.Lawful) (hs : d.settings = .ok s) (hheight : 0 < im.height) (hwidth : 0 < im.width) (harea : im.height * im.width < 2 ^ 63) (t : Tiling im.height im.width)
    (r : Raster Bool im.height im.width) : (Plan.make s im t r means).Sound := by
  have htiles : 0 < t.tiles := by
    refine Nat.mul_pos (Nat.pos_of_ne_zero ?_) (Nat.pos_of_ne_zero ?_)
    · intro h
      have := t.rows_mul
      rw [h, Nat.zero_mul] at this
      omega
    · intro h
      have := t.cols_mul
      rw [h, Nat.zero_mul] at this
      omega
  have hbits := Draft.natural_mem (f := .bitsPerChannel) rfl rfl (by decide) (Draft.checkBounded_of_settings hs _)
  rw [← (Draft.settings_fields hs).1] at hbits
  obtain ⟨hfinite, hpos, hmost⟩ := Draft.fraction_bounds hs
  have hsamples := (Plan.make s im t r means).canvas.samples_le
  exact {
    tiles := Canvas.tiles_sound _ htiles
    means := hmeans
    length_tiles := Canvas.length_tiles _
    palettes_pos := (Draft.inRange hs).numPalettes_pos
    bits_pos := by
      have : 2 ≤ s.bitsPerChannel := hbits.1
      show 1 ≤ s.bitsPerChannel
      omega
    countable := Plan.countable hfinite hpos hmost (Nat.lt_of_le_of_lt hsamples harea) }

/-! ## Quantizing under guard -/

namespace Guarded

/-- Quantizes a buffer under guard. The journal stays when it is refused. -/
def quantize {γ : Type} [OrderSource γ] (d : Draft) (means : Cluster.Means Float) (b : Buffer) (source : Result γ)
    (workers : Value) (a : Audience Float) : Attempt Float (Plan Float × Composition Float) := do
  let p ← check (d.planWith means b)
  -- The colours of the plan are snapped by this step.
  let _ ← check (levelStep p.settings.bitsPerChannel : Result Float)
  check (d.needToCompose p workers)
  if p.tiles.samples.isEmpty then
    let c ← runIdle p a
    pure (p, c)
  else
    let g ← check source
    check (d.need [.minColorFactor, .minPaletteFactor, .replaceIterations])
    let c ← runWith p a g
    pure (p, c)

variable {γ : Type} [OrderSource γ] {d : Draft} {means : Cluster.Means Float} {b : Buffer} {source : Result γ} {workers : Value}

theorem quantize_eq_error {e : Error} (h : d.planWith means b = .error e) (a : Audience Float) :
    StateT.run (ExceptT.run (quantize d means b source workers a)) Journal.empty = (.error e, Journal.empty) := by
  rw [quantize, h]
  rfl

/-- A sound plan is carried out: nothing is refused on the way, and the journal and the composition are those of the run. -/
theorem quantize_eq_ok [LawfulSource γ] {p : Plan Float} {n : Number} {g : γ} (hp : d.planWith means b = .ok p) (hsound : p.Sound)
    (hm : d.missing = []) (hw : Number.ofValue workers = .ok n) (hg : source = .ok g)
    (a : Audience Float) :
    StateT.run (ExceptT.run (quantize d means b source workers a)) Journal.empty =
      (.ok (p, (p.run a g).composition), (p.run a g).journal) := by
  rw [quantize, hp]
  show StateT.run (ExceptT.run (check (levelStep p.settings.bitsPerChannel : Result Float) >>= _)) _ = _
  rw [levelStep_eq_ok hsound.bits_pos]
  show StateT.run (ExceptT.run (check (d.needToCompose p workers) >>= _)) _ = _
  rw [Draft.needToCompose_eq_ok hm hw, Plan.run]
  show StateT.run (ExceptT.run (if p.tiles.samples.isEmpty then _ else _)) _ = _
  by_cases hempty : p.tiles.samples.isEmpty = true
  · rw [if_pos hempty, if_pos hempty, ExceptT.run_bind, StateT.run_bind, runIdle_eq_ok a hsound]
    rfl
  · have hsamples : 0 < p.tiles.samples.size := by
      rw [Array.isEmpty_iff_size_eq_zero] at hempty
      omega
    rw [if_neg hempty, if_neg hempty, hg, Draft.need_eq_ok hm]
    show StateT.run (ExceptT.run (runWith p a g >>= _)) _ = _
    rw [ExceptT.run_bind, StateT.run_bind, runWith_eq_ok a hsound hsamples]
    rfl

end Guarded

/-! ## Failing fast -/

/-- A seed that is not negative makes a generator. -/
theorem Generator.ofValue_natural (n : Nat) : ∃ g, Generator.ofValue (.int n) = .ok g := by
  rw [Generator.ofValue, wordsOfInt, if_neg (by omega)]
  exact ⟨_, rfl⟩

/-- **Quantizing fails fast or not at all.** Take a draft that has a number wherever one is wanted, whose key colour has
components of a byte if it can be read, and any buffer with fewer elements than an array can have. Take any lawful source of
orders, as every seed that is not negative makes one, any lawful k-means, any number of workers, and any audience, whenever it
stops the run. If there is a reason to refuse, quantizing gives the error of the first one, and nothing has been reported.
Otherwise it comes to a result. It does so under guard too, with the same composition and the same journal: no lookup is out of
range, nothing is divided by zero, there is a palette to choose for each tile, nothing is shuffled out of nothing, and the best
palettes are there when they are asked for. -/
theorem quantize_failsFast {γ : Type} [OrderSource γ] [LawfulSource γ] {d : Draft} {means : Cluster.Means Float}
    (hmeans : means.Lawful) {b : Buffer} {source : Result γ} {workers : Value} {k : Number} {g : γ} (hm : d.missing = [])
    (hkey : ∀ c, d.transparentColor = .ok c → c.IsBytes) (hcells : Tensor.cells b.shape < 2 ^ 63)
    (hw : Number.ofValue workers = .ok k) (hg : source = .ok g) (a : Audience Float) :
    (∀ n : Nat, ∃ g, Generator.ofValue (.int n) = .ok g) ∧
    (∀ e, d.firstRefusal b = some e →
      d.quantizeWith means b source workers a = .error e ∧
      StateT.run (ExceptT.run (Guarded.quantize d means b source workers a)) Journal.empty = (.error e, Journal.empty)) ∧
    (d.firstRefusal b = none → ∃ p o,
      d.quantizeWith means b source workers a = .ok (p, o) ∧
      StateT.run (ExceptT.run (Guarded.quantize d means b source workers a)) Journal.empty =
        (.ok (p, o.composition), o.journal)) := by
  refine ⟨Generator.ofValue_natural, ?_⟩
  rcases Draft.plan_firstRefusal means hm hkey with ⟨e, hfirst, hplan⟩ | ⟨hfirst, hpixels, s, im, t, r, hs, hplan, hh, hw', hpos⟩
  · rw [hfirst]
    constructor
    · rintro _ ⟨⟩
      refine ⟨?_, Guarded.quantize_eq_error hplan a⟩
      simp only [Draft.quantizeWith, hplan, bind, Except.bind]
    · intro h
      cases h
  · rw [hfirst]
    constructor
    · intro e h
      cases h
    · intro _
      have harea : im.height * im.width < 2 ^ 63 := by
        rw [hh, hw']
        exact Nat.lt_of_le_of_lt hpixels.area_le hcells
      have hsound := Plan.make_sound hmeans hs hpos.1 hpos.2 harea t r
      exact ⟨_, _, Draft.quantizeWith_eq_ok hplan hm hw hg a, Guarded.quantize_eq_ok hplan hsound hm hw hg a⟩

/-- The small image comes to a result, though the run is stopped at its fourth report. The same bytes in one row are
refused. -/
theorem quantize_failsFast_small :
    (∃ p o, Draft.small.quantize Buffer.small (.int 7) (.int 2) ⟨fun i _ => i == 3, true⟩ = .ok (p, o) ∧
      StateT.run (ExceptT.run (Guarded.quantize Draft.small Cluster.lloyd Buffer.small (Generator.ofValue (.int 7)) (.int 2)
        ⟨fun i _ => i == 3, true⟩)) Journal.empty = (.ok (p, o.composition), o.journal)) ∧
    Draft.small.quantize ⟨true, [12], Buffer.small.data⟩ (.int 7) (.int 2) ⟨fun i _ => i == 3, true⟩ =
      .error .pixelBuffer := by
  have hm : Draft.small.missing = [] := by decide +kernel
  have hkey : ∀ c, Draft.small.transparentColor = .ok c → c.IsBytes := by
    obtain ⟨s, hs, -, -, -, -, hcolor⟩ := Draft.small_settings
    intro c hc
    rw [Draft.settings_transparentColor hs, hcolor] at hc
    cases hc
    decide
  have hnone : Draft.small.firstRefusal Buffer.small = none := Option.isNone_iff_eq_none.1 (by decide +kernel)
  have hrow : Draft.small.firstRefusal ⟨true, [12], Buffer.small.data⟩ = some .pixelBuffer := rfl
  have hg : Generator.ofValue (.int 7) = .ok (Generator.ofSeed 7) := rfl
  exact ⟨(quantize_failsFast Cluster.lloyd_lawful hm hkey (by decide) rfl hg _).2.2 hnone,
    ((quantize_failsFast Cluster.lloyd_lawful hm hkey (by decide) rfl hg _).2.1 _ hrow).1⟩

end Tessera
