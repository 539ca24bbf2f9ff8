import Mathlib
import Tessera.Proofs.Acts
import Tessera.Proofs.BitDepth
import Tessera.Proofs.Correction
/-!
# Snapping is a projection

A value lies less than half a step above its level (`Level.snapTo_gt`), so of two levels that are equally near the upper one
is taken. Snapping keeps the order and leaves the first and the last level alone, so what lies between these stays between
them. A palette set is snapped channel by channel, but for a fixed slot, and whatever correcting comes to was snapped last
(`Depth.map_reduce_correct`).
-/

namespace Tessera

namespace Level

variable {step : Rat}

theorem snapTo_gt (hs : 0 < step) (x : Rat) : x - step / 2 < snapTo step x := by
  have hlt := mul_lt_mul_of_pos_right (Int.lt_floor_add_one (x / step + 1 / 2)) hs
  have hx : (x / step + 1 / 2) * step = x + step / 2 := by field_simp
  rw [hx, add_mul, one_mul] at hlt
  rw [snapTo_rat]
  linarith

/-- **Halves go up.** No level above the one that a value is snapped to is as near. -/
theorem le_snapTo_of_abs_sub_eq (hs : 0 < step) (x : Rat) {y : Rat} (hy : IsLevel step y)
    (h : |x - snapTo step x| = |x - y|) : y ≤ snapTo step x := by
  -- A level above would be a whole step away, but from the value both are at most half a step away.
  by_contra habove
  rw [not_le] at habove
  have happart := hy.step_le_abs_sub hs (isLevel_snapTo step x) habove.ne'
  rw [abs_of_pos (sub_pos.2 habove)] at happart
  have hgt := snapTo_gt hs x
  have hhalf := abs_sub_snapTo_le hs x
  rw [h, abs_sub_comm, abs_of_pos (by linarith)] at hhalf
  linarith

theorem snapTo_mono (hs : 0 < step) : Monotone (snapTo step) := by
  intro x y h
  have hdiv : x / step + 1 / 2 ≤ y / step + 1 / 2 := by gcongr
  rw [snapTo_rat, snapTo_rat]
  exact mul_le_mul_of_nonneg_right (Int.cast_le.2 (Int.floor_le_floor hdiv)) hs.le

theorem isLevel_zero (step : Rat) : IsLevel step 0 := ⟨0, by simp⟩

theorem last_mul_step {bits : Nat} (hb : 1 ≤ bits) : (2 ^ bits - 1) * Level.step bits = (255 : Rat) := by
  rw [step_eq, mul_div_cancel₀ _ (last_pos hb).ne']

theorem isLevel_last {bits : Nat} (hb : 1 ≤ bits) : IsLevel (Level.step bits) 255 := by
  refine ⟨2 ^ bits - 1, ?_⟩
  push_cast
  exact (last_mul_step hb).symm

/-- What lies between the first and the last level stays there. -/
theorem snap_mem {bits : Nat} (hb : 1 ≤ bits) {x : Rat} (hfirst : 0 ≤ x) (hlast : x ≤ 255) :
    0 ≤ snap bits x ∧ snap bits x ≤ 255 := by
  have hs : (0 : Rat) < Level.step bits := step_pos hb
  have hzero : snap bits (0 : Rat) = 0 := (snapTo_eq_self_iff hs).2 (isLevel_zero _)
  have htop : snap bits (255 : Rat) = 255 := (snapTo_eq_self_iff hs).2 (isLevel_last hb)
  exact ⟨hzero.symm.le.trans (snapTo_mono hs hfirst), (snapTo_mono hs hlast).trans htop.le⟩

/-- A level between the first and the last is one of `2 ^ bits`. -/
theorem IsLevel.exists_nat {bits : Nat} (hb : 1 ≤ bits) {x : Rat} (hx : IsLevel (Level.step bits) x) (hfirst : 0 ≤ x)
    (hlast : x ≤ 255) : ∃ k : Nat, k ≤ 2 ^ bits - 1 ∧ x = k * Level.step bits := by
  obtain ⟨m, rfl⟩ := hx
  have hs : (0 : Rat) < Level.step bits := step_pos hb
  have hm : 0 ≤ m := by exact_mod_cast nonneg_of_mul_nonneg_left hfirst hs
  obtain ⟨k, rfl⟩ := Int.eq_ofNat_of_zero_le hm
  rw [← last_mul_step hb, Int.cast_natCast] at hlast
  have hk : (k : Rat) ≤ ((2 ^ bits - 1 : Nat) : Rat) := by
    rw [cast_last]
    exact le_of_mul_le_mul_right hlast hs
  exact ⟨k, by exact_mod_cast hk, by rw [Int.cast_natCast]⟩

end Level

/-! ## Palette sets -/

namespace Depth

/-- Reducing keeps a fixed slot and snaps all others. -/
theorem color?_reduce_eq (bits : Nat) (s : PaletteSet Rat) (p k : Nat) :
    (reduce bits s).color? p k =
      (s.color? p k).map fun c => if s.isFixed k then c else c.map (Level.snap bits) := by
  have hfixed : (s.isFixed k = true) = (k < s.zero.reservedSlots) := by
    rw [PaletteSet.isFixed, ColorZero.reservedSlots]
    cases s.zero.isTransparent <;> simp
  simp only [color?_reduce, hfixed]
  rfl

/-- Any number of corrective passes leaves a reduced set reduced. -/
theorem reduce_iterate_correctOnce {bits : Nat} (hb : 1 ≤ bits) (ts : TileSet) (n : Nat) (s : PaletteSet Rat) :
    reduce bits ((correctOnce bits ts)^[n] (reduce bits s)) = (correctOnce bits ts)^[n] (reduce bits s) := by
  cases n with
  | zero => exact reduce_reduce hb s
  | succ n =>
    rw [Function.iterate_succ_apply']
    exact reduce_reduce hb _

/-- Whoever is told of the passes, what correcting comes to is reduced. -/
theorem map_reduce_correct {m : Type → Type} [Monad m] [LawfulMonad m] (tell : Moment Rat → m Unit) {bits : Nat}
    (hb : 1 ≤ bits) (passes : Nat) (ts : TileSet) (s : PaletteSet Rat) :
    reduce bits <$> correct tell bits passes ts s = correct tell bits passes ts s := by
  rw [correct, correctFrom_eq, map_bind, map_pure, reduce_iterate_correctOnce hb]

end Depth

namespace Level

/-- **Snapping is the projection to the nearest level.** In exact arithmetic, with at least one bit, a value is snapped to a
multiple of the step `255 / (2 ^ bits - 1)`, no multiple is nearer, and of two that are equally near it is the upper one.
Snapping keeps the order, is done once and for all, and takes `0 … 255` to the levels `0 … 2 ^ bits - 1` within these
bounds. So reducing a palette set is done once and for all, changes its colours only, and of these not those of a fixed
slot; and whatever correcting comes to, for any palettes, tiles and number of passes, is reduced already. -/
theorem snap_projects {bits : Nat} (hb : 1 ≤ bits) :
    (∀ x : Rat, ∃ k : ℤ, snap bits x = k * (255 / (2 ^ bits - 1)) ∧
      ∀ j : ℤ, |x - snap bits x| ≤ |x - j * (255 / (2 ^ bits - 1))| ∧
        (|x - snap bits x| = |x - j * (255 / (2 ^ bits - 1))| → j ≤ k)) ∧
    Monotone (snap bits : Rat → Rat) ∧
    (∀ x : Rat, snap bits (snap bits x) = snap bits x) ∧
    (∀ x : Rat, 0 ≤ x → x ≤ 255 → 0 ≤ snap bits x ∧ snap bits x ≤ 255 ∧
      ∃ k : ℕ, k ≤ 2 ^ bits - 1 ∧ snap bits x = k * (255 / (2 ^ bits - 1))) ∧
    (∀ s : PaletteSet Rat, Depth.reduce bits (Depth.reduce bits s) = Depth.reduce bits s ∧
      (Depth.reduce bits s).zero = s.zero ∧ (Depth.reduce bits s).slots = s.slots ∧ (Depth.reduce bits s).size = s.size ∧
      ∀ p k, (Depth.reduce bits s).color? p k =
        (s.color? p k).map fun c => if s.isFixed k then c else c.map (snap bits)) ∧
    ∀ (m : Type → Type) [Monad m] [LawfulMonad m] (tell : Moment Rat → m Unit) (passes : ℕ) (ts : TileSet)
      (s : PaletteSet Rat), Depth.reduce bits <$> Depth.correct tell bits passes ts s = Depth.correct tell bits passes ts s := by
  have hs : (0 : Rat) < Level.step bits := step_pos hb
  rw [← step_eq bits]
  refine ⟨fun x => ?_, snapTo_mono hs, fun x => (snapTo_eq_self_iff hs).2 (isLevel_snapTo _ x), fun x hfirst hlast => ?_,
    fun s => ⟨Depth.reduce_reduce hb s, rfl, rfl, Depth.reduce_size bits s, Depth.color?_reduce_eq bits s⟩,
    fun m _ _ tell passes ts s => Depth.map_reduce_correct tell hb passes ts s⟩
  · obtain ⟨k, hk⟩ := isLevel_snapTo (Level.step bits) x
    refine ⟨k, hk, fun j => ⟨abs_sub_snapTo_le_abs_sub hs x ⟨j, rfl⟩, fun htie => ?_⟩⟩
    have hle := le_snapTo_of_abs_sub_eq hs x ⟨j, rfl⟩ htie
    rw [hk] at hle
    exact_mod_cast le_of_mul_le_mul_right hle hs
  · obtain ⟨hzero, htop⟩ := snap_mem hb hfirst hlast
    exact ⟨hzero, htop, IsLevel.exists_nat hb (isLevel_snapTo _ x) hzero htop⟩

/-- With two bits, `85 / 2` is midway between the first two levels and goes up. A palette under a transparent policy keeps
its first colour. -/
theorem snap_projects_midway :
    (∀ j : ℤ, |(85 / 2 : Rat) - snap 2 (85 / 2)| = |85 / 2 - (j : Rat) * 85| → j ≤ 1) ∧
      Depth.reduce 2 <$> Depth.correct Moment.keep 2 3 Depth.pairTiles Depth.pairSet =
        Depth.correct Moment.keep 2 3 Depth.pairTiles Depth.pairSet ∧
      (Depth.reduce 2 (⟨.transparentKey, 1, [#v[⟨16, 32, 48⟩]]⟩ : PaletteSet Rat)).color? 0 0 = some ⟨16, 32, 48⟩ := by
  obtain ⟨hnearest, -, -, -, hreduce, hcorrect⟩ := snap_projects (show 1 ≤ 2 by decide)
  have hup : snap 2 (85 / 2 : Rat) = 85 := by rw [snap, step_eq, snapTo_rat]; norm_num
  obtain ⟨k, hk, hall⟩ := hnearest (85 / 2)
  have hstep : (255 / (2 ^ 2 - 1) : Rat) = 85 := by norm_num
  rw [hstep] at hk
  have hone : k = 1 := by
    rw [hup] at hk
    exact_mod_cast (by linarith : (k : Rat) = 1)
  refine ⟨fun j hj => hone ▸ (hall j).2 (by rw [hstep]; exact hj), hcorrect _ _ _ _ _, ?_⟩
  obtain ⟨-, -, -, -, hcolor⟩ := hreduce ⟨.transparentKey, 1, [#v[⟨16, 32, 48⟩]]⟩
  rw [hcolor]
  rfl

end Level

end Tessera
