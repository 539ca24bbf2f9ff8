import Mathlib
import Tessera.Proofs.ColorZero
import Tessera.Proofs.Levels
import Tessera.Proofs.Residuals
import Tessera.Proofs.Slots
/-!
# Corrective passes

A corrective pass puts every slot to the mean of the colours that count for it, and snaps the means to levels. The errors
of the colours of one slot add up to a spread about its colour, and the spread about any colour grows with the distance of
that colour from the mean (`Depth.spread_le_of_sqDist_le`). A colour of levels is no nearer to the mean than the level that
the mean is snapped to, so a pass from such colours raises the spread of no slot; and what the tiles then choose anew can
only be better. So the error does not rise from pass to pass (`Depth.correct_errors_descend`).
-/

namespace Tessera

/-! ## Spread about a colour -/

namespace Rgb

theorem foldl_add (a : Rgb Rat) (cs : List (Rgb Rat)) : cs.foldl add a = a.add (sum cs) := by
  induction cs generalizing a with
  | nil => simp [sum, add, zipWith, fill, Scalar.ofNat_rat]
  | cons c cs ih =>
    have hsum : sum (c :: cs) = ((fill 0).add c).add (sum cs) := ih _
    rw [List.foldl_cons, ih, hsum]
    simp [add, zipWith, fill, add_assoc]

theorem sum_cons (c : Rgb Rat) (cs : List (Rgb Rat)) : sum (c :: cs) = c.add (sum cs) := by
  have hsum : sum (c :: cs) = ((fill 0).add c).add (sum cs) := foldl_add _ cs
  rw [hsum]
  simp [add, zipWith, fill]

end Rgb

namespace Depth

/-- The squared distances of entries from a colour, each as often as the entry counts. -/
def spread (es : List Entry) (c : Rgb Rat) : Rat :=
  (es.map fun e => (Rgb.ofBytes e.color).sqDist c * e.count).sum

/-- How often entries count. -/
def weight (es : List Entry) : Rat := (es.map fun e => (e.count : Rat)).sum

/-- The sum of the colours of entries, each as often as it counts. -/
def colorSum (es : List Entry) : Rgb Rat :=
  Rgb.sum (es.map fun e => (Rgb.ofBytes e.color).scale (e.count : Rat))

/-- Two spreads of the same entries differ by what depends on their weight and their sum alone. -/
theorem spread_sub_spread (es : List Entry) (c d : Rgb Rat) :
    spread es c - spread es d =
      weight es * (c.r * c.r + c.g * c.g + c.b * c.b - (d.r * d.r + d.g * d.g + d.b * d.b)) -
        2 * ((colorSum es).r * (c.r - d.r) + (colorSum es).g * (c.g - d.g) + (colorSum es).b * (c.b - d.b)) := by
  induction es with
  | nil => simp [spread, weight, colorSum, Rgb.sum, Rgb.fill, Scalar.ofNat_rat]
  | cons e es ih =>
    have hspread : ∀ c, spread (e :: es) c = (Rgb.ofBytes e.color).sqDist c * e.count + spread es c := fun _ => rfl
    have hweight : weight (e :: es) = e.count + weight es := rfl
    have hsum : colorSum (e :: es) = ((Rgb.ofBytes e.color).scale (e.count : Rat)).add (colorSum es) := Rgb.sum_cons _ _
    rw [hspread, hspread, hweight, hsum]
    simp only [Rgb.add, Rgb.zipWith, Rgb.scale, Rgb.map, Rgb.sqDist]
    linarith

/-- **Spread about the mean.** Of two colours the one nearer to the mean has the lesser spread about it. -/
theorem spread_le_of_sqDist_le {es : List Entry} (hw : 0 < weight es) {c d : Rgb Rat}
    (h : ((colorSum es).map (· / weight es)).sqDist c ≤ ((colorSum es).map (· / weight es)).sqDist d) :
    spread es c ≤ spread es d := by
  have hmean : ∀ x : Rat, x = weight es * (x / weight es) := fun x => (mul_div_cancel₀ x hw.ne').symm
  have hdiff : spread es c - spread es d = weight es *
      (((colorSum es).map (· / weight es)).sqDist c - ((colorSum es).map (· / weight es)).sqDist d) := by
    rw [spread_sub_spread]
    nth_rewrite 1 [hmean (colorSum es).r, hmean (colorSum es).g, hmean (colorSum es).b]
    simp only [Rgb.map, Rgb.sqDist]
    ring
  have hle := mul_nonpos_of_nonneg_of_nonpos hw.le (sub_nonpos.2 h)
  linarith

/-! ## The means of slots -/

variable {s : PaletteSet Rat} {rs : Reseed.Residuals Rat}

theorem countedSlot_eq_home (s : PaletteSet Rat) (r : Residual Rat) : countedSlot s r = s.home r.palette r.slot := rfl

/-- The entries that count for a slot. -/
def slotEntries (s : PaletteSet Rat) (rs : Reseed.Residuals Rat) (place : Nat × Nat) : List Entry :=
  (rs.filter fun x => countedSlot s x.2 == place).map Prod.fst

theorem slotMean_eq (s : PaletteSet Rat) (rs : Reseed.Residuals Rat) (p k : Nat) :
    slotMean s rs p k =
      if 0 < weight (slotEntries s rs (p, k)) then
        some ((colorSum (slotEntries s rs (p, k))).map (· / weight (slotEntries s rs (p, k))))
      else none := by
  have hweight : weight (slotEntries s rs (p, k)) =
      Scalar.sum ((rs.filter fun x => countedSlot s x.2 == (p, k)).map fun x => (Scalar.ofNat x.1.count : Rat)) := by
    rw [weight, slotEntries, List.map_map, Scalar.sum_rat]
    rfl
  have hsum : colorSum (slotEntries s rs (p, k)) =
      Rgb.sum ((rs.filter fun x => countedSlot s x.2 == (p, k)).map fun x =>
        (Rgb.ofBytes x.1.color).scale (Scalar.ofNat x.1.count : Rat)) := by
    rw [colorSum, slotEntries, List.map_map]
    rfl
  rw [hweight, hsum]
  rfl

/-- Only homes have means. -/
theorem home_of_slotMean {p k : Nat} {c : Rgb Rat} (h : slotMean s rs p k = some c) : s.home p k = (p, k) := by
  rw [slotMean_eq] at h
  split at h
  · rename_i hw
    obtain ⟨e, he⟩ := List.exists_mem_of_ne_nil (slotEntries s rs (p, k)) fun h0 => by simp [h0, weight] at hw
    obtain ⟨x, hx, -⟩ := List.mem_map.1 he
    have hplace := (List.mem_filter.1 hx).2
    rw [beq_iff_eq, countedSlot_eq_home] at hplace
    have hhome := s.home_home x.2.palette x.2.slot
    rwa [hplace] at hhome
  · cases h

end Depth

/-! ## The colours after a pass -/

namespace PaletteSet

variable {α : Type} {s : PaletteSet α}

theorem home_mem_allSlots [Scalar α] {p k : Nat} (hp : p < s.size) (hk : k < s.slots) :
    s.home p k ∈ Depth.allSlots s := by
  have hmem : ∀ q j, q < s.size → j < s.slots → (q, j) ∈ Depth.allSlots s := by
    intro q j hq hj
    exact List.mem_flatMap.2 ⟨q, List.mem_range.2 hq, List.mem_map.2 ⟨j, List.mem_range.2 hj, rfl⟩⟩
  rw [home]
  split
  · exact hmem 0 0 (by omega) (by omega)
  · exact hmem p k hp hk

/-- The shared slot holds one colour, if there is one. -/
def OneZero (s : PaletteSet α) : Prop := s.zero = .shared → ∃ common, ∀ c ∈ s.zeros, c = some common

/-- A slot has the colour of its home. -/
theorem OneZero.color?_home (h : s.OneZero) {p k : Nat} (hp : p < s.size) :
    s.color? (s.home p k).1 (s.home p k).2 = s.color? p k := by
  rw [home]
  split
  · rename_i hshared
    simp only [isShared, Bool.and_eq_true, beq_iff_eq] at hshared
    obtain ⟨hz, rfl⟩ := hshared
    obtain ⟨common, hcommon⟩ := h hz
    have hzero : ∀ q < s.size, s.color? q 0 = some common := by
      intro q hq
      have hq : q < s.palettes.length := hq
      rw [color?_eq_bind, List.getElem?_eq_getElem hq]
      exact hcommon _ (List.mem_map_of_mem (List.getElem_mem hq))
    rw [hzero p hp, hzero 0 (by omega)]
  · rfl

end PaletteSet

namespace Depth

variable (ts : TileSet) (s : PaletteSet Rat) {bits : Nat}

/-- The residuals by which a set is corrected. -/
def ownResiduals : Reseed.Residuals Rat := Reseed.residuals ts s (Fit.assignment none ts s)

/-- The mean for a slot, found at its home. -/
def homeMean (p k : Nat) : Option (Rgb Rat) := slotMean s (ownResiduals ts s) (s.home p k).1 (s.home p k).2

/-- Puts the mean for a slot into it, if there is one. -/
def putMean (out : PaletteSet Rat) (place : Nat × Nat) : PaletteSet Rat :=
  (slotMean s (ownResiduals ts s) place.1 place.2).elim out (out.setColor place.1 place.2)

theorem recenter_eq : recenter ts s = (allSlots s).foldl (putMean ts s) s := by
  refine congrArg (fun f => (allSlots s).foldl f s) ?_
  funext out place
  obtain ⟨p, k⟩ := place
  rw [putMean, ownResiduals]
  dsimp only
  cases slotMean s _ p k <;> rfl

/-- Putting means into a list of slots changes the slots with a home in the list. -/
theorem color?_foldl_putMean {q k : Nat} (hk : ¬ s.isFixed k) (places : List (Nat × Nat)) {out : PaletteSet Rat}
    (hz : out.zero = s.zero) :
    (places.foldl (putMean ts s) out).color? q k =
      (out.color? q k).map fun old => if s.home q k ∈ places then (homeMean ts s q k).getD old else old := by
  induction places generalizing out with
  | nil => simp
  | cons x places ih =>
    rw [List.foldl_cons]
    cases hmean : slotMean s (ownResiduals ts s) x.1 x.2 with
    | none =>
      have hput : putMean ts s out x = out := by rw [putMean, hmean, Option.elim_none]
      have hnone : s.home q k = x → homeMean ts s q k = none := fun hx => by rw [homeMean, hx, hmean]
      rw [hput, ih hz]
      congr 1
      funext old
      by_cases hx : s.home q k = x
      · simp [hx, hnone hx]
      · simp [hx]
    | some c =>
      have hput : putMean ts s out x = out.setColor x.1 x.2 c := by rw [putMean, hmean, Option.elim_some]
      have hsome : s.home q k = x → homeMean ts s q k = some c := fun hx => by rw [homeMean, hx, hmean]
      rw [hput, ih (by rw [PaletteSet.setColor_zero, hz]),
        out.color?_setColor x.1 x.2 c (by rwa [PaletteSet.isFixed_congr hz]), Option.map_map,
        PaletteSet.home_congr hz, PaletteSet.home_congr hz, home_of_slotMean hmean]
      congr 1
      funext old
      by_cases hx : s.home q k = x
      · simp [hx, hsome hx]
      · simp [hx]

theorem color?_recenter {q k : Nat} (hk : ¬ s.isFixed k) :
    (recenter ts s).color? q k = (s.color? q k).map fun old => (homeMean ts s q k).getD old := by
  rw [recenter_eq, color?_foldl_putMean ts s hk (allSlots s) rfl]
  cases hc : s.color? q k with
  | none => rfl
  | some c =>
    have hplace : ¬ (s.size ≤ q ∨ s.slots ≤ k) := by rw [← s.color?_eq_none_iff, hc]; simp
    rw [Option.map_some, if_pos (PaletteSet.home_mem_allSlots (by omega) (by omega))]
    rfl

theorem correctOnce_sameShape (bits : Nat) : s.SameShape (correctOnce bits ts s) := by
  rw [correctOnce]
  split
  · exact ⟨rfl, rfl, reduce_size bits s⟩
  · obtain ⟨hzero, hslots, hsize⟩ := recenter_sameShape ts s
    exact ⟨hzero, hslots, (reduce_size bits _).trans hsize⟩

/-- A pass snaps the mean for a slot, or its colour when there is none. -/
theorem color?_correctOnce (hts : ts.entries ≠ []) {q k : Nat} (hk : s.firstCandidate ≤ k) :
    (correctOnce bits ts s).color? q k =
      (s.color? q k).map fun old => ((homeMean ts s q k).getD old).map (Level.snapTo (Level.step bits)) := by
  have hreserved : ¬ k < (recenter ts s).zero.reservedSlots := by
    rw [(recenter_sameShape ts s).zero_eq]
    exact Nat.not_lt.2 hk
  rw [correctOnce, if_neg (by simpa using hts), color?_reduce,
    color?_recenter ts s (PaletteSet.not_isFixed_of_le hk), Option.map_map]
  simp only [if_neg hreserved, Function.comp_def]

end Depth

/-! ## Sums slot by slot -/

/-- A sum is made up of the sums for each key. -/
theorem sum_map_eq_sum_filter {β κ : Type} [BEq κ] [LawfulBEq κ] [DecidableEq κ] (key : β → κ) (f : β → Rat) (xs : List β)
    {keys : Finset κ} (h : ∀ x ∈ xs, key x ∈ keys) :
    (xs.map f).sum = ∑ k ∈ keys, ((xs.filter fun x => key x == k).map f).sum := by
  simp only [sum_map_filter]
  induction xs with
  | nil => simp
  | cons x xs ih =>
    have hx : key x ∈ keys := h x List.mem_cons_self
    simp only [List.map_cons, List.sum_cons, Finset.sum_add_distrib, beq_iff_eq, Finset.sum_ite_eq, hx, if_true]
    rw [ih fun y hy => h y (List.mem_cons_of_mem x hy)]
    simp only [beq_iff_eq]

namespace Depth

/-- The error of entries that are each shown with the slot that its residual names. -/
def shownError (t : PaletteSet Rat) (rs : Reseed.Residuals Rat) : Rat :=
  (rs.map fun x => Compose.slotError t (Rgb.ofBytes x.1.color) x.2.palette x.2.slot * x.1.count).sum

theorem shownError_eq_sum (s t : PaletteSet Rat) (rs : Reseed.Residuals Rat) :
    shownError t rs = ∑ place ∈ (rs.map fun x => countedSlot s x.2).toFinset,
      shownError t (rs.filter fun x => countedSlot s x.2 == place) := by
  have hkeys : ∀ x ∈ rs, countedSlot s x.2 ∈ (rs.map fun x => countedSlot s x.2).toFinset :=
    fun x hx => List.mem_toFinset.2 (List.mem_map.2 ⟨x, hx, rfl⟩)
  simp only [shownError]
  rw [sum_map_eq_sum_filter (fun x => countedSlot s x.2) _ rs hkeys]

/-- Entries of one slot that are shown with one colour have their spread about it as their error. -/
theorem shownError_filter {s t : PaletteSet Rat} {rs : Reseed.Residuals Rat} {place : Nat × Nat} {c : Rgb Rat}
    (h : ∀ x ∈ rs, countedSlot s x.2 = place → t.color? x.2.palette x.2.slot = some c) :
    shownError t (rs.filter fun x => countedSlot s x.2 == place) = spread (slotEntries s rs place) c := by
  rw [shownError, spread, slotEntries, List.map_map]
  congr 1
  refine List.map_congr_left fun x hx => ?_
  obtain ⟨hx, hplace⟩ := List.mem_filter.1 hx
  rw [Compose.slotError, h x hx (beq_iff_eq.1 hplace), Option.getD_some, Rgb.sqDist_comm]
  rfl

/-- Snapping the mean of a slot leaves no greater spread than a colour of levels has. -/
theorem spread_snapTo_slotMean_le {bits : Nat} (hb : 1 ≤ bits) (s : PaletteSet Rat) (rs : Reseed.Residuals Rat) (p k : Nat)
    {c : Rgb Rat} (hc : c.map (Level.snapTo (Level.step bits)) = c) :
    spread (slotEntries s rs (p, k)) (((slotMean s rs p k).getD c).map (Level.snapTo (Level.step bits))) ≤
      spread (slotEntries s rs (p, k)) c := by
  rw [slotMean_eq]
  split
  · rename_i hw
    rw [Option.getD_some]
    exact spread_le_of_sqDist_le hw (Rgb.sqDist_map_snapTo_le (Level.step_pos hb) _ hc)
  · rw [Option.getD_none, hc]

/-! ## One pass -/

theorem reduce_reduce {bits : Nat} (hb : 1 ≤ bits) (s : PaletteSet Rat) : reduce bits (reduce bits s) = reduce bits s := by
  have hsnap : ∀ v : Vector (Rgb Rat) s.slots, snapFrom (Level.step bits) s.zero.reservedSlots
      (snapFrom (Level.step bits) s.zero.reservedSlots v) = snapFrom (Level.step bits) s.zero.reservedSlots v := by
    intro v
    ext k hk : 1
    simp only [snapFrom, Vector.getElem_mapIdx]
    split
    · rfl
    · exact Rgb.map_snapTo_snapTo (Level.step_pos hb) _
  simp only [reduce, List.map_map]
  congr 1
  exact List.map_congr_left fun v _ => hsnap v

/-- A palette set that corrective passes can go on from: there is something to choose, a shared slot is one colour, and
the colours are levels. -/
structure Settled (bits : Nat) (s : PaletteSet Rat) : Prop where
  size_pos : 0 < s.size
  candidates_pos : 0 < s.candidateCount
  oneZero : s.OneZero
  reduced : reduce bits s = s

namespace Settled

variable {bits : Nat} {s : PaletteSet Rat} (h : Settled bits s) (ts : TileSet)
include h

/-- The colours of candidates are levels. -/
theorem map_snapTo {p k : Nat} {c : Rgb Rat} (hk : s.firstCandidate ≤ k) (hc : s.color? p k = some c) :
    c.map (Level.snapTo (Level.step bits)) = c := by
  have hcolor := color?_reduce bits s p k
  rw [h.reduced, hc, Option.map_some, if_neg (show ¬ k < s.zero.reservedSlots from Nat.not_lt.2 hk)] at hcolor
  exact (Option.some.inj hcolor).symm

theorem mem_ownResiduals {x : Entry × Residual Rat} (hx : x ∈ ownResiduals ts s) :
    x.2.palette < s.size ∧ s.firstCandidate ≤ x.2.slot ∧ x.2.slot < s.slots := by
  rw [ownResiduals, Reseed.residuals_eq] at hx
  obtain ⟨e, -, rfl⟩ := List.mem_map.1 hx
  have hp := Fit.assignment_getD_lt none ts h.size_pos e.tile
  obtain ⟨hpalette, hfirst, hlast, -⟩ := Residual.ofEntry_nearest e hp h.candidates_pos
  exact ⟨hpalette.symm ▸ hp, hfirst, hlast⟩

/-- Shown with the slots that its own residuals name, a set has its own error. -/
theorem shownError_eq : shownError s (ownResiduals ts s) = Fit.errorUnder none ts s (Fit.assignment none ts s) := by
  rw [shownError, ownResiduals, Reseed.residuals_eq, List.map_map, Fit.errorUnder]
  congr 1
  refine List.map_congr_left fun e _ => ?_
  obtain ⟨hpalette, -, -, hcost⟩ :=
    Residual.ofEntry_nearest e (Fit.assignment_getD_lt none ts h.size_pos e.tile) h.candidates_pos
  rw [Function.comp_apply, hpalette, hcost, Fit.entryCost, Scalar.ofNat_rat]

/-- Shown with slots that another set names, a set has no smaller error than with its nearest candidates. -/
theorem errorUnder_le_shownError {t : PaletteSet Rat} (ht : s.SameShape t) :
    Fit.errorUnder none ts t (Fit.assignment none ts s) ≤ shownError t (ownResiduals ts s) := by
  rw [shownError, ownResiduals, Reseed.residuals_eq, List.map_map, Fit.errorUnder]
  refine List.sum_le_sum fun e _ => ?_
  have hp := Fit.assignment_getD_lt none ts h.size_pos e.tile
  obtain ⟨hpalette, hfirst, hlast, -⟩ := Residual.ofEntry_nearest e hp h.candidates_pos
  rw [Function.comp_apply, hpalette, Fit.entryCost, Scalar.ofNat_rat]
  have hslot : t.firstCandidate ≤ (Residual.ofEntry s _ e).slot ∧ (Residual.ofEntry s _ e).slot < t.slots :=
    ⟨by rwa [PaletteSet.firstCandidate, ht.zero_eq], ht.slots_eq ▸ hlast⟩
  exact mul_le_mul_of_nonneg_right (Compose.cost_le_slotError _ (ht.size_eq ▸ hp) hslot) (Nat.cast_nonneg _)

/-- A pass leaves no greater error when every entry stays with its slot. -/
theorem shownError_correctOnce_le (hb : 1 ≤ bits) (hts : ts.entries ≠ []) :
    shownError (correctOnce bits ts s) (ownResiduals ts s) ≤ shownError s (ownResiduals ts s) := by
  rw [shownError_eq_sum s, shownError_eq_sum s s]
  refine Finset.sum_le_sum fun place hplace => ?_
  obtain ⟨x, hx, rfl⟩ := List.mem_map.1 (List.mem_toFinset.1 hplace)
  obtain ⟨hp, hfirst, hlast⟩ := h.mem_ownResiduals ts hx
  obtain ⟨c, hc⟩ := s.exists_color? hp hlast
  rw [← h.oneZero.color?_home hp] at hc
  -- the colour of the home is that of all slots that count for it, before the pass and after it
  have hbefore : ∀ y ∈ ownResiduals ts s, countedSlot s y.2 = countedSlot s x.2 →
      s.color? y.2.palette y.2.slot = some c := by
    intro y hy hplace
    rw [← h.oneZero.color?_home (h.mem_ownResiduals ts hy).1, ← hc]
    simp only [countedSlot_eq_home] at hplace
    rw [hplace]
  have hafter : ∀ y ∈ ownResiduals ts s, countedSlot s y.2 = countedSlot s x.2 →
      (correctOnce bits ts s).color? y.2.palette y.2.slot =
        some (((slotMean s (ownResiduals ts s) (countedSlot s x.2).1 (countedSlot s x.2).2).getD c).map
          (Level.snapTo (Level.step bits))) := by
    intro y hy hplace
    rw [color?_correctOnce ts s hts (h.mem_ownResiduals ts hy).2.1, hbefore y hy hplace, Option.map_some, homeMean,
      ← countedSlot_eq_home, hplace]
  rw [shownError_filter hbefore, shownError_filter hafter]
  exact spread_snapTo_slotMean_le hb s _ _ _ (h.map_snapTo hfirst (hbefore x hx rfl))

/-- **One corrective pass.** It does not raise the error. -/
theorem meanError_correctOnce_le (hts : ts.InOrder) (hb : 1 ≤ bits) :
    Fit.meanError none ts (correctOnce bits ts s) ≤ Fit.meanError none ts s := by
  by_cases hempty : ts.entries = []
  · rw [correctOnce, if_pos (by simpa using hempty), h.reduced]
  have hshape := correctOnce_sameShape ts s bits
  apply Fit.meanError_le_of_sum_le
  calc ((Fit.assign none ts (correctOnce bits ts s)).map Prod.snd).sum
      ≤ Fit.errorUnder none ts (correctOnce bits ts s) (Fit.assignment none ts s) :=
        Fit.sum_assign_le none hts fun t => hshape.size_eq ▸ Fit.assignment_getD_lt none ts h.size_pos t
    _ ≤ shownError (correctOnce bits ts s) (ownResiduals ts s) := h.errorUnder_le_shownError ts hshape
    _ ≤ shownError s (ownResiduals ts s) := h.shownError_correctOnce_le ts hb hempty
    _ = ((Fit.assign none ts s).map Prod.snd).sum := by
        rw [h.shownError_eq, Fit.sum_assign_eq none hts h.size_pos]

end Settled

/-! ## All passes -/

theorem oneZero_of_zeroHolds {s t : PaletteSet Rat} (h : s.OneZero) (hz : t.zero = s.zero)
    (hkeep : ∀ transparent, s.ZeroHolds transparent → t.ZeroHolds transparent) : t.OneZero := by
  intro hshared
  have hzero : s.ZeroHolds (Rgb.fill 0) := by
    refine ⟨fun ht => ?_, h⟩
    rw [← hz, hshared] at ht
    cases ht
  exact (hkeep _ hzero).shared hshared

theorem Settled.correctOnce {bits : Nat} {s : PaletteSet Rat} (h : Settled bits s) (hb : 1 ≤ bits) (ts : TileSet) :
    Settled bits (correctOnce bits ts s) := by
  have hshape := correctOnce_sameShape ts s bits
  exact ⟨hshape.size_eq ▸ h.size_pos, hshape.candidateCount_eq ▸ h.candidates_pos,
    oneZero_of_zeroHolds h.oneZero hshape.zero_eq fun _ ht => correctOnce_zeroHolds ht bits ts, reduce_reduce hb _⟩

theorem settled_reduce {bits : Nat} (hb : 1 ≤ bits) {s : PaletteSet Rat} (hs : 0 < s.size) (hc : 0 < s.candidateCount)
    (hone : s.OneZero) : Settled bits (reduce bits s) :=
  ⟨(reduce_size bits s).symm ▸ hs, hc, oneZero_of_zeroHolds hone rfl fun _ ht => reduce_zeroHolds ht bits, reduce_reduce hb s⟩

/-- Passes from a number on tell one set each, and no set has a greater error than those before it. -/
theorem Settled.correctFrom_descends {bits : Nat} (hb : 1 ≤ bits) {ts : TileSet} (hts : ts.InOrder) (n i : Nat)
    {s : PaletteSet Rat} (h : Settled bits s) (told : List (Moment Rat)) :
    ∃ sets : List (PaletteSet Rat), sets.length = n ∧
      (correctFrom Moment.keep bits ts n i s).run told =
        (sets.getLastD s, told ++ sets.mapIdx fun j t => Moment.corrected (i + j) t) ∧
      ((s :: sets).map (Fit.meanError none ts)).IsChain (· ≥ ·) := by
  induction n generalizing i s told with
  | zero => exact ⟨[], rfl, by rw [List.mapIdx_nil, List.append_nil]; rfl, by simp⟩
  | succ n ih =>
    obtain ⟨sets, hlength, hrun, hchain⟩ := ih (i + 1) (h.correctOnce hb ts)
      (told ++ [.corrected i (Depth.correctOnce bits ts s)])
    refine ⟨Depth.correctOnce bits ts s :: sets, by rw [List.length_cons, hlength], Eq.trans hrun ?_, ?_⟩
    · simp [List.getLastD_cons, List.mapIdx_cons, Nat.add_assoc, Nat.add_comm 1, -List.getLastD_eq_getLast?]
    · exact List.isChain_cons_cons.2 ⟨h.meanError_correctOnce_le ts hts hb, hchain⟩

/-- **Corrective passes descend.** The tiles are in order, as those of every image are. A pass from a set of levels does not
raise the error, although it snaps the means. So the errors that correcting meets, from the reduced set on and pass by
pass, do not increase, whatever the policy and however many passes there are. -/
theorem correct_errors_descend {ts : TileSet} (hts : ts.InOrder) {bits : Nat} (hb : 1 ≤ bits) {s : PaletteSet Rat}
    (hs : 0 < s.size) (hc : 0 < s.candidateCount) (hone : s.OneZero) :
    (reduce bits s = s → Fit.meanError none ts (correctOnce bits ts s) ≤ Fit.meanError none ts s) ∧
    ∀ passes, ∃ sets : List (PaletteSet Rat), sets.length = passes ∧
      (correct Moment.keep bits passes ts s).run [] = (sets.getLastD (reduce bits s), sets.mapIdx Moment.corrected) ∧
      ((reduce bits s :: sets).map (Fit.meanError none ts)).Pairwise (· ≥ ·) := by
  refine ⟨fun hreduced => Settled.meanError_correctOnce_le ⟨hs, hc, hone, hreduced⟩ ts hts hb, fun passes => ?_⟩
  obtain ⟨sets, hlength, hrun, hchain⟩ := (settled_reduce hb hs hc hone).correctFrom_descends hb hts passes 0 []
  refine ⟨sets, hlength, Eq.trans hrun ?_, List.isChain_iff_pairwise.1 hchain⟩
  simp only [List.nil_append, Nat.zero_add]

/-- Two tiles of two colours each. -/
def pairTiles : TileSet :=
  .ofBlocks 1 2 2 1
    [[(⟨10, 20, 30⟩, false), (⟨200, 90, 180⟩, false)], [(⟨60, 80, 10⟩, false), (⟨250, 250, 20⟩, false)]]

/-- Two palettes of colours of two bits, with a shared first slot. -/
def pairSet : PaletteSet Rat := ⟨.shared, 2, [#v[⟨0, 85, 0⟩, ⟨255, 255, 255⟩], #v[⟨0, 85, 0⟩, ⟨170, 0, 85⟩]]⟩

/-- Three passes over two palettes that share a slot. -/
theorem correct_errors_descend_pair :
    pairTiles.InOrder ∧ pairSet.OneZero ∧ reduce 2 pairSet = pairSet ∧
      Fit.meanError none pairTiles (correctOnce 2 pairTiles pairSet) ≤ Fit.meanError none pairTiles pairSet ∧
      ∃ sets : List (PaletteSet Rat), sets.length = 3 ∧
        (correct Moment.keep 2 3 pairTiles pairSet).run [] =
          (sets.getLastD (reduce 2 pairSet), sets.mapIdx Moment.corrected) ∧
        ((reduce 2 pairSet :: sets).map (Fit.meanError none pairTiles)).Pairwise (· ≥ ·) := by
  have hts : pairTiles.InOrder := TileSet.ofBlocks_inOrder _ _ _ _ _
  have hone : pairSet.OneZero := fun _ => ⟨⟨0, 85, 0⟩, by decide +kernel⟩
  have hreduced : reduce 2 pairSet = pairSet := by cbv
  obtain ⟨hpass, hpasses⟩ := correct_errors_descend hts (show 1 ≤ 2 by decide) (by decide) (by decide) hone
  exact ⟨hts, hone, hreduced, hpass hreduced, hpasses 3⟩

end Depth

end Tessera
