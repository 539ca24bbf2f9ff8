import Mathlib
import Tessera.Proofs.Budget
import Tessera.Proofs.Ceilings
import Tessera.Proofs.Extraction
import Tessera.Proofs.GuardedRun
/-!
# Numbers that stay ordinary

The samples of a block are counted with floating-point numbers: a share of all samples, and later the blocks of a phase. An
array has fewer than `2 ^ 63` elements and the share is ten at most, so every number on the way is far below infinity, and a
phase has a block (`Plan.countable`).
-/

namespace Tessera

namespace Floats

open Decimal Float.Model Float.Model.UnpackedFloat

/-! ## Order and bounds -/

theorem le_iff_value {x y : Float} (hx : x.isFinite) (hy : y.isFinite) : x ≤ y ↔ value x ≤ value y := by
  rw [le_iff_compare, compare_eq (parts_canonical x) (parts_canonical y) hx hy, Option.any_some, Ordering.isLE_iff_ne_gt]
  exact compare_le_iff_le

theorem two_pow_lt_zpow {k : Nat} {n : Int} (h : (k : Int) < n) : (2 : Rat) ^ k < 2 ^ n := by
  rw [← zpow_natCast]
  exact zpow_lt_zpow_right₀ one_lt_two h

/-- Rounding does not carry a number past a power of two. -/
theorem Rounded.le_two_pow {q : Float} {x : Rat} (h : Rounded q x) {k : Nat} (hx : x ≤ 2 ^ k) : value q ≤ 2 ^ k := by
  obtain ⟨-, m, p, hnear, hvalue⟩ := h
  have hlt : x < 2 ^ ((k + 1 : Nat) : Int) := by
    rw [zpow_natCast, pow_succ]
    have : (0 : Rat) < 2 ^ k := by positivity
    linarith
  have hp := hnear.exponent_le (by omega) hlt
  have hpow : (0 : Rat) < 2 ^ p := by positivity
  -- the power of two is a whole number of units in the last place
  have hunits : (2 : Rat) ^ k / 2 ^ p = ((2 ^ (k - p).toNat : Nat) : Rat) := by
    rw [← zpow_natCast, ← zpow_sub₀ two_ne_zero]
    push_cast
    rw [← zpow_natCast, Int.toNat_of_nonneg (by push_cast at hp; omega)]
  have hm := hnear.mantissa_le (hunits ▸ (div_le_div_iff_of_pos_right hpow).2 hx)
  rw [hvalue, ← le_div_iff₀ hpow, hunits]
  exact_mod_cast hm

theorem roundDiv_le (n d : Nat) : roundDiv n d ≤ n / d + 1 := by
  unfold roundDiv
  dsimp only
  split_ifs <;> omega

/-- A number with all its bits and a small exponent is finite, and its bits bound it. -/
theorem ofBinary_le {m e : Nat} (hm : 2 ^ 52 ≤ m) (hmost : m ≤ 2 ^ 53) (he : e ≤ 100) :
    (ofBinary m e).isFinite ∧ value (ofBinary m e) ≤ 2 ^ (e + 54) := by
  have hbinary : ofBinary m e = .ofBits ((e + 1074) * 2 ^ 52 + m).toUInt64 := by
    have hfull : ¬ m < Nat.pow 2 52 := not_lt.2 hm
    have hbits : (e + 1074) * Nat.pow 2 52 + m < 2047 * Nat.pow 2 52 := by
      show (e + 1074) * 2 ^ 52 + m < 2047 * 2 ^ 52
      omega
    rw [ofBinary, if_neg hfull]
    dsimp only
    rw [show ((e : Int) + 1074).toNat = e + 1074 by omega, if_pos hbits]
    rfl
  rw [hbinary]
  generalize hb : (e + 1074) * 2 ^ 52 + m = bits
  have hparts := @parts_ofBits_normal (bits / 2 ^ 52) (bits % 2 ^ 52) (by omega) (by omega) (by omega)
  rw [Nat.div_add_mod'] at hparts
  refine ⟨by rw [isFinite_eq, hparts]; rfl, ?_⟩
  have hmantissa : ((2 ^ 52 + bits % 2 ^ 52 : Nat) : Rat) ≤ 2 ^ (53 : Int) := by
    have : 2 ^ 52 + bits % 2 ^ 52 ≤ 2 ^ 53 := by omega
    exact_mod_cast this
  have hexponent : (2 : Rat) ^ (((bits / 2 ^ 52 : Nat) : Int) - 1075) ≤ 2 ^ ((e : Int) + 1) :=
    zpow_le_zpow_right₀ one_le_two (by omega)
  rw [value, hparts, ratio_positive, size]
  calc ((2 ^ 52 + bits % 2 ^ 52 : Nat) : Rat) * 2 ^ (((bits / 2 ^ 52 : Nat) : Int) - 1075)
      ≤ 2 ^ (53 : Int) * 2 ^ ((e : Int) + 1) := mul_le_mul hmantissa hexponent (by positivity) (by positivity)
    _ = 2 ^ (e + 54) := by
      rw [← zpow_add₀ two_ne_zero, ← zpow_natCast]
      congr 1
      push_cast
      ring

/-- Positive numbers of so many bits are finite, and stay between one and twice their bound. -/
theorem natural_bounds {n k : Nat} (hpos : 0 < n) (hlt : n < 2 ^ k) (hk : k ≤ 150) :
    (Decimal.ofNat n).isFinite ∧ 1 ≤ value (Decimal.ofNat n) ∧ value (Decimal.ofNat n) ≤ 2 ^ (k + 1) := by
  by_cases hsmall : n ≤ 2 ^ 53
  · obtain ⟨hfinite, hvalue⟩ := value_natural hsmall
    have hle : (n : Rat) ≤ 2 ^ k := by exact_mod_cast hlt.le
    rw [hvalue]
    exact ⟨hfinite, by exact_mod_cast hpos, hle.trans (pow_le_pow_right₀ one_le_two (Nat.le_succ k))⟩
  · have hlarge : 2 ^ 53 ≤ n := by omega
    have hlog : n.log2 < k := (Nat.log2_lt hpos.ne').2 hlt
    have hleast : 53 ≤ n.log2 := (Nat.le_log2 hpos.ne').2 hlarge
    have hdiv : n / 2 ^ (n.log2 - 52) < 2 ^ 53 := by
      rw [Nat.div_lt_iff_lt_mul (by positivity), ← pow_add]
      have hself := Nat.lt_log2_self (n := n)
      rwa [show 53 + (n.log2 - 52) = n.log2 + 1 by omega]
    have hmantissa : 2 ^ 52 ≤ roundDiv n (2 ^ (n.log2 - 52)) := by
      refine le_trans ?_ (le_roundDiv _ _)
      rw [Nat.le_div_iff_mul_le (by positivity), ← pow_add, Nat.add_sub_cancel' (by omega)]
      exact Nat.log2_self_le hpos.ne'
    have hmost : roundDiv n (2 ^ (n.log2 - 52)) ≤ 2 ^ 53 := (roundDiv_le _ _).trans hdiv
    obtain ⟨hfinite, hvalue⟩ := ofBinary_le hmantissa hmost (by omega : n.log2 - 52 ≤ 100)
    rw [← ofNat_eq_ofBinary hlarge] at hfinite hvalue
    refine ⟨hfinite, le_trans (by norm_num) (le_value_natural hlarge hfinite), hvalue.trans ?_⟩
    exact pow_le_pow_right₀ one_le_two (by omega)

/-! ## Shares -/

theorem parts_mul_zero {x c : Float} {s : Sign} (hc : c.isFinite) (hx : parts x = .zero s) :
    ∃ t, parts (c * x) = .zero t := by
  have hmul : ∃ t, UnpackedFloat.mul Format.binary64 (parts c) (parts x) = .zero t := by
    rw [isFinite_eq] at hc
    rw [hx]
    cases hp : parts c with
    | infinity t => rw [hp] at hc; cases hc
    | notANumber => rw [hp] at hc; cases hc
    | zero t => exact ⟨t * s, rfl⟩
    | finite t m e hm => exact ⟨t * s, rfl⟩
  obtain ⟨t, ht⟩ := hmul
  exact ⟨t, by rw [parts_mul c x (by rw [ht]; trivial), ht]⟩

/-- A share of a number of samples is an ordinary number. -/
theorem mul_natural_bounds {f : Float} (hf : f.isFinite) (hpos : 0 < value f) (hmost : value f ≤ 16) {n : Nat}
    (hlt : n < 2 ^ 63) :
    (f * Decimal.ofNat n).isFinite ∧ 0 ≤ value (f * Decimal.ofNat n) ∧ value (f * Decimal.ofNat n) ≤ 2 ^ 68 := by
  rcases Nat.eq_zero_or_pos n with rfl | hn
  · obtain ⟨hfinite, hzero⟩ := value_natural (n := 0) (Nat.zero_le _)
    obtain ⟨s, hs⟩ := parts_of_eq_zero hfinite (by simpa using hzero)
    obtain ⟨t, ht⟩ := parts_mul_zero hf hs
    rw [isFinite_eq, value, ht]
    exact ⟨rfl, le_refl _, by rw [ratio_zero]; positivity⟩
  · obtain ⟨hfinite, hone, hbound⟩ := natural_bounds hn hlt (by decide)
    have hprod : value f * value (Decimal.ofNat n) ≤ 2 ^ 68 :=
      calc value f * value (Decimal.ofNat n) ≤ 16 * 2 ^ 64 := mul_le_mul hmost hbound (by linarith) (by norm_num)
        _ = 2 ^ 68 := by norm_num
    have hrounded := rounded_mul hf hfinite hpos (by linarith) (hprod.trans_lt (two_pow_lt_zpow (by decide)))
    exact ⟨hrounded.1, hrounded.nonneg, hrounded.le_two_pow hprod⟩

/-- So is a fifth of one. -/
theorem div_five_bounds {x : Float} (hx : x.isFinite) (hnonneg : 0 ≤ value x) (hmost : value x ≤ 2 ^ 68) :
    (x / Decimal.ofNat 5).isFinite ∧ 0 ≤ value (x / Decimal.ofNat 5) ∧ value (x / Decimal.ofNat 5) ≤ 2 ^ 68 := by
  obtain ⟨hfinite, hone, -⟩ := natural_bounds (n := 5) (k := 3) (by decide) (by decide) (by decide)
  rcases hnonneg.eq_or_lt with hzero | hpos
  · obtain ⟨hq, hvalue⟩ := value_zero_div hx hfinite hzero.symm (by linarith)
    rw [hvalue]
    exact ⟨hq, le_refl _, by positivity⟩
  · have hquot : value x / value (Decimal.ofNat 5) ≤ 2 ^ 68 := (div_le_self hnonneg hone).trans hmost
    have hrounded := rounded_div hx hfinite hpos (by linarith) (hquot.trans_lt (two_pow_lt_zpow (by decide)))
    exact ⟨hrounded.1, hrounded.nonneg, hrounded.le_two_pow hquot⟩

/-- The whole part of a bounded number. -/
theorem toNat_le {x : Float} (hx : x.isFinite) (hnonneg : 0 ≤ value x) {k : Nat} (hmost : value x ≤ 2 ^ k) :
    Scalar.toNat x ≤ 2 ^ k := by
  obtain ⟨hfinite, hvalue⟩ := value_floor hx hnonneg
  have hfloor : (0 : Rat) ≤ ⌊value x⌋ := by exact_mod_cast Int.floor_nonneg.2 hnonneg
  have hint : Decimal.toInt (Decimal.floor x) = ⌊value x⌋ := by
    rw [toInt_eq_floor hfinite (hvalue ▸ hfloor), hvalue, Int.floor_intCast]
  have hle : ⌊value x⌋ ≤ 2 ^ k := by
    have := (Int.floor_le (value x)).trans hmost
    exact_mod_cast this
  show (Decimal.toInt (Decimal.floor x)).toNat ≤ 2 ^ k
  rw [hint]
  have : ((⌊value x⌋).toNat : Int) = ⌊value x⌋ := Int.toNat_of_nonneg (Int.floor_nonneg.2 hnonneg)
  zify
  rw [this]
  exact hle

/-- A positive number of samples fills a block, whatever the size of the blocks. -/
theorem ceil_div_pos {total block : Nat} (htotal : 0 < total) (htlt : total < 2 ^ 80) (hblock : 0 < block)
    (hblt : block < 2 ^ 80) :
    (Decimal.ofNat total / Decimal.ofNat block).isFinite ∧ 0 < Scalar.ceil (Decimal.ofNat total / Decimal.ofNat block) := by
  obtain ⟨htfinite, htone, htmost⟩ := natural_bounds htotal htlt (by decide)
  obtain ⟨hbfinite, hbone, hbmost⟩ := natural_bounds hblock hblt (by decide)
  generalize Decimal.ofNat total = t at htfinite htone htmost ⊢
  generalize Decimal.ofNat block = b at hbfinite hbone hbmost ⊢
  have hmost : value t / value b < 2 ^ (1023 : Int) :=
    ((div_le_self (by linarith) hbone).trans htmost).trans_lt (two_pow_lt_zpow (by decide))
  have hleast : (2 : Rat) ^ (-1074 : Int) ≤ value t / value b :=
    calc (2 : Rat) ^ (-1074 : Int) ≤ 2 ^ (-81 : Int) := zpow_le_zpow_right₀ one_le_two (by decide)
      _ = 1 / 2 ^ 81 := by rw [zpow_neg, one_div]; rfl
      _ ≤ value t / value b := div_le_div₀ (by linarith) htone (by linarith) hbmost
  have hrounded := rounded_div htfinite hbfinite (by linarith) (by linarith) hmost
  have hpos := hrounded.pos hleast
  refine ⟨hrounded.1, ?_⟩
  rw [ceil_eq hrounded.1 hpos.le]
  exact Int.ceil_pos.2 hpos

end Floats

/-! ## Shares of checked settings -/

namespace Number

/-- Of the whole numbers only those from one to ten lie between the bounds of a share. -/
theorem whole_of_share {n : Int} (hten : le (.whole n) (.real 10.0) = true) (hleast : le (.real 0.01) (.whole n) = true) :
    1 ≤ n ∧ n ≤ 10 := by
  have hdecode : (Decimal.decode 10.0).num = 10 * (Decimal.decode 10.0).den ∧ 0 < (Decimal.decode 10.0).den ∧
      0 < (Decimal.decode 0.01).num := by decide +kernel
  obtain ⟨hnum, hden, hnum'⟩ := hdecode
  have hle := whole_le_real (by decide +kernel) hten
  have hge := real_le_whole (by decide +kernel) hleast
  rw [hnum] at hle
  generalize (Decimal.decode 10.0).den = ten at hle hden
  generalize (Decimal.decode 0.01).num = num at hge hnum'
  generalize (Decimal.decode 0.01).den = den at hge
  constructor
  · by_contra hn
    have hmul : n * (den : Int) ≤ 0 := Int.mul_nonpos_of_nonpos_of_nonneg (by omega) (Int.natCast_nonneg den)
    omega
  · push_cast at hle
    exact le_of_mul_le_mul_right hle (by exact_mod_cast hden)

end Number

namespace Draft

open Floats

variable {d : Draft} {s : Settings Float}

theorem settings_fraction (h : d.settings = .ok s) : s.fractionOfPixels = d.scalar .fractionOfPixels := by
  simp only [settings, bind_eq_ok] at h
  obtain ⟨_, -, _, -, _, -, _, -, _, -, _, -, hmake⟩ := h
  cases hmake
  rfl

theorem fraction_within (h : d.settings = .ok s) : 0.01 ≤ s.fractionOfPixels ∧ s.fractionOfPixels ≤ 10.0 := by
  rw [settings_fraction h, scalar]
  cases hx : d.scalar? .fractionOfPixels with
  | some x =>
    refine scalar?_within (f := .fractionOfPixels) rfl rfl ?_ (checkBounded_of_settings h _) hx
    intro n hten hleast
    obtain ⟨hone, hmost⟩ := Number.whole_of_share hten hleast
    interval_cases n <;> decide +kernel
  | none => decide +kernel

/-- The share of the samples in a block is positive, and not large. -/
theorem fraction_bounds (h : d.settings = .ok s) :
    s.fractionOfPixels.isFinite ∧ 0 < value s.fractionOfPixels ∧ value s.fractionOfPixels ≤ 16 := by
  obtain ⟨hleast, hmost⟩ := fraction_within h
  have hlo : (0.01 : Float).isFinite := by decide +kernel
  have hhi : (10.0 : Float).isFinite := by decide +kernel
  have hfinite := isFinite_of_le_of_le hlo hhi hleast hmost
  obtain ⟨hzero, hzerovalue⟩ := value_natural (n := 0) (Nat.zero_le _)
  obtain ⟨hsixteen, hvalue⟩ := value_natural (n := 16) (by decide)
  have hpos := (lt_iff_value hzero hlo).1 (by decide +kernel)
  have hten := (lt_iff_value hhi hsixteen).1 (by decide +kernel)
  rw [hzerovalue] at hpos
  rw [hvalue] at hten
  rw [le_iff_value hlo hfinite] at hleast
  rw [le_iff_value hfinite hhi] at hmost
  refine ⟨hfinite, ?_, ?_⟩
  · exact lt_of_lt_of_le (by exact_mod_cast hpos) hleast
  · exact hmost.trans (by exact_mod_cast hten.le)

end Draft

/-! ## Plans -/

/-- There are no more samples than pixels. -/
theorem Canvas.samples_le (c : Canvas) : c.tiles.samples.size ≤ c.height * c.width := by
  have hlen : ∀ b : Fin c.tiling.tiles, (c.samplesOf b).length ≤ c.tiling.area := by
    intro b
    have hkept : (TileSet.kept (c.cellsOf b)).length ≤ (c.cellsOf b).length := by
      rw [TileSet.kept, List.length_map]
      exact List.length_filter_le _ _
    rw [Canvas.samplesOf, List.length_map]
    exact hkept.trans (by simp [Canvas.cellsOf])
  have hsum : ((List.finRange c.tiling.tiles).flatMap c.samplesOf).length ≤ c.tiling.tiles * c.tiling.area := by
    rw [List.length_flatMap]
    refine (List.sum_le_card_nsmul _ c.tiling.area ?_).trans (by simp)
    intro n hn
    obtain ⟨b, -, rfl⟩ := List.mem_map.1 hn
    exact hlen b
  have hcells : c.tiling.tiles * c.tiling.area = c.height * c.width :=
    calc c.tiling.rows * c.tiling.cols * (c.tiling.tileHeight * c.tiling.tileWidth)
        = c.tiling.rows * c.tiling.tileHeight * (c.tiling.cols * c.tiling.tileWidth) := by ring
      _ = c.height * c.width := by rw [c.tiling.rows_mul, c.tiling.cols_mul]
  rw [← Array.length_toList, c.samples_eq, ← hcells]
  exact hsum

/-- **Blocks can be counted.** With a share that is positive and not large, and no more samples than an array has elements,
all numbers are finite and there is a block. -/
theorem Plan.countable {p : Plan Float} (hf : p.settings.fractionOfPixels.isFinite)
    (hpos : 0 < Floats.value p.settings.fractionOfPixels) (hmost : Floats.value p.settings.fractionOfPixels ≤ 16)
    (hsamples : p.tiles.samples.size < 2 ^ 63) : p.Countable := by
  obtain ⟨hfinite, hnonneg, hbound⟩ := Floats.mul_natural_bounds hf hpos hmost hsamples
  have hshare : ∃ x : Float, (if p.settings.dither = .slow
      then p.settings.fractionOfPixels * Scalar.ofInt p.tiles.samples.size / Scalar.ofNat 5
      else p.settings.fractionOfPixels * Scalar.ofInt p.tiles.samples.size) = x ∧
      x.isFinite ∧ 0 ≤ Floats.value x ∧ Floats.value x ≤ 2 ^ 68 := by
    split
    · exact ⟨_, rfl, Floats.div_five_bounds hfinite hnonneg hbound⟩
    · exact ⟨_, rfl, hfinite, hnonneg, hbound⟩
  obtain ⟨x, hx, hxfinite, hxnonneg, hxbound⟩ := hshare
  have hblock : p.block = max 1 (Scalar.toNat x) := by
    rw [← hx]
    rfl
  have hle := Floats.toNat_le hxfinite hxnonneg hxbound
  have hblockpos := p.block_pos
  have hblocklt : p.block < 2 ^ 80 := by
    rw [hblock]
    omega
  have htotal : p.finalTotal = 10 * p.block := rfl
  have htotallt : p.finalTotal < 2 ^ 80 := by
    rw [htotal, hblock]
    omega
  have hmax : (max 1 p.block : Int) = (p.block : Int) := by omega
  obtain ⟨hquotient, hceil⟩ := Floats.ceil_div_pos (by omega : 0 < p.finalTotal) htotallt hblockpos hblocklt
  refine ⟨by rw [hx]; exact hxfinite, ?_, ?_, ?_, ?_⟩
  · exact (Floats.natural_bounds (by omega) htotallt (by decide)).1
  · rw [hmax]
    exact (Floats.natural_bounds hblockpos hblocklt (by decide)).1
  · rw [hmax]
    exact hquotient
  · rw [countBlocks, hmax]
    have : 0 < Scalar.ceil (Scalar.ofInt p.finalTotal / Scalar.ofInt p.block : Float) := hceil
    omega

end Tessera
