import Mathlib
import Tessera.Proofs.Agreement
import Tessera.Proofs.Removal
import Tessera.Proofs.Steps
/-!
# Weak colours

A slot that a palette has for itself is weak if it contributes less than some share of the mean of these slots
(`Reseed.IsWeak`). Weak slots are seeded with colours that tiles of the palette have and the palette misses
(`Reseed.Missed`), the weakest slot with the worst colour and so on (`Reseed.plan`). As the plans of all palettes are made
from the palettes before the step, and no plan writes to another palette, each palette becomes what its own plan makes of it
(`Reseed.color?_reseeded`). This holds for the shared slot too, whose seed is taken before and which no plan may use again.

So exactly the slots in plans change, no colour comes twice, and all of it is counted (`Reseed.reseedColors_weak_only`).
-/

namespace Tessera

/-! ## Writing to the slots of one palette -/

namespace PaletteSet

variable {α : Type} (s : PaletteSet α)

/-- The slots from the first free one on are neither fixed nor shared. -/
theorem setColor_of_firstFree_le (p : Nat) {slot : Nat} (h : s.firstFree ≤ slot) (c : Rgb α) :
    s.setColor p slot c = s.modifyAt p slot fun _ => c := by
  have hown : s.isFixed slot = false ∧ s.isShared slot = false := by
    rw [firstFree] at h
    rw [isFixed, isShared]
    cases hz : s.zero with
    | unique => exact ⟨rfl, rfl⟩
    | shared | transparentAlpha | transparentKey =>
      have hpos : 1 ≤ slot := by
        rw [hz] at h
        exact h
      have hne : (slot == 0) = false := beq_eq_false_iff_ne.2 (by omega)
      rw [hne, Bool.and_false, Bool.and_false]
      exact ⟨rfl, rfl⟩
  rw [setColor, changeColor, hown.1, hown.2, if_neg Bool.false_ne_true, if_neg Bool.false_ne_true]

theorem firstCandidate_le_firstFree : s.firstCandidate ≤ s.firstFree := by
  rw [firstCandidate, firstFree]
  cases s.zero <;> decide

variable [Scalar α] (p : Nat)

/-- Puts byte colours into slots of one palette, one after the other. -/
def writeBytes (writes : List (Nat × Rgb UInt8)) : PaletteSet α :=
  writes.foldl (fun s w => s.setColor p w.1 (Rgb.ofBytes w.2)) s

theorem writeBytes_cons (w : Nat × Rgb UInt8) (writes : List (Nat × Rgb UInt8)) :
    s.writeBytes p (w :: writes) = (s.setColor p w.1 (Rgb.ofBytes w.2)).writeBytes p writes := rfl

theorem writeBytes_sameShape (writes : List (Nat × Rgb UInt8)) : s.SameShape (s.writeBytes p writes) := by
  refine List.foldlRecOn writes _ (motive := s.SameShape) (.refl s) ?_
  intro t ht w _
  exact ht.changeColor _ _ _

section

variable {s} {writes : List (Nat × Rgb UInt8)} (hown : ∀ w ∈ writes, s.firstFree ≤ w.1)
include hown

/-- Other slots, and other palettes, stay as they are. -/
theorem color?_writeBytes_of_ne {q k : Nat} (h : q = p → ∀ w ∈ writes, w.1 ≠ k) :
    (s.writeBytes p writes).color? q k = s.color? q k := by
  induction writes generalizing s with
  | nil => rfl
  | cons w writes ih =>
    rw [List.forall_mem_cons] at hown
    have hstep : (s.setColor p w.1 (Rgb.ofBytes w.2)).color? q k = s.color? q k := by
      rw [s.setColor_of_firstFree_le p hown.1, color?_modifyAt]
      by_cases hq : q = p ∧ k = w.1
      · exact absurd hq.2.symm (h hq.1 w List.mem_cons_self)
      · simp [hq]
    rw [writeBytes_cons, ih ?_ fun hq v hv => h hq v (List.mem_cons_of_mem w hv), hstep]
    intro v hv
    rw [firstFree, setColor, changeColor_zero]
    exact hown.2 v hv

/-- Slots that are written once hold what is written. -/
theorem color?_writeBytes_of_mem (hnodup : (writes.map Prod.fst).Nodup) {k : Nat} {c : Rgb UInt8} (h : (k, c) ∈ writes) :
    (s.writeBytes p writes).color? p k = (s.color? p k).map fun _ => Rgb.ofBytes c := by
  induction writes generalizing s with
  | nil => cases h
  | cons w writes ih =>
    rw [List.forall_mem_cons] at hown
    rw [List.map_cons, List.nodup_cons] at hnodup
    have hrest : ∀ v ∈ writes, (s.setColor p w.1 (Rgb.ofBytes w.2)).firstFree ≤ v.1 := by
      intro v hv
      rw [firstFree, setColor, changeColor_zero]
      exact hown.2 v hv
    have hstep : (s.setColor p w.1 (Rgb.ofBytes w.2)).color? p k =
        (s.color? p k).map fun old => if k = w.1 then Rgb.ofBytes w.2 else old := by
      rw [s.setColor_of_firstFree_le p hown.1, color?_modifyAt]
      simp
    rw [writeBytes_cons]
    rcases List.mem_cons.1 h with rfl | hlater
    · rw [color?_writeBytes_of_ne p hrest, hstep]
      · simp
      · intro _ v hv hvk
        exact hnodup.1 (List.mem_map.2 ⟨v, hv, hvk⟩)
    · rw [ih hrest hnodup.2 hlater, hstep, Option.map_map]
      rfl

end

/-- What becomes of a palette depends on its own colours alone. -/
theorem color?_writeBytes_congr {s t : PaletteSet α} {writes : List (Nat × Rgb UInt8)}
    (hs : ∀ w ∈ writes, s.firstFree ≤ w.1) (ht : ∀ w ∈ writes, t.firstFree ≤ w.1) (hnodup : (writes.map Prod.fst).Nodup)
    {k : Nat} (h : s.color? p k = t.color? p k) :
    (s.writeBytes p writes).color? p k = (t.writeBytes p writes).color? p k := by
  by_cases hk : ∃ c, (k, c) ∈ writes
  · obtain ⟨c, hc⟩ := hk
    rw [color?_writeBytes_of_mem p hs hnodup hc, color?_writeBytes_of_mem p ht hnodup hc, h]
  · have hne : ∀ w ∈ writes, w.1 ≠ k := by
      rintro w hw rfl
      exact hk ⟨w.2, hw⟩
    rw [color?_writeBytes_of_ne p hs fun _ => hne, color?_writeBytes_of_ne p ht fun _ => hne, h]

end PaletteSet

/-! ## Seeds -/

namespace Reseed

theorem mem_distinctFrom {taken colors : List (Rgb UInt8)} {d : Rgb UInt8} :
    d ∈ distinctFrom taken colors ↔ d ∈ colors ∧ d ∉ taken := by
  fun_induction distinctFrom taken colors with
  | case1 taken => simp
  | case2 taken c cs hc ih =>
    rw [List.contains_iff_mem] at hc
    rw [ih, List.mem_cons]
    constructor
    · exact fun h => ⟨Or.inr h.1, h.2⟩
    · rintro ⟨rfl | hd, htaken⟩
      · exact absurd hc htaken
      · exact ⟨hd, htaken⟩
  | case3 taken c cs hc ih =>
    rw [List.contains_iff_mem] at hc
    rw [List.mem_cons, ih, List.mem_cons, List.mem_cons, not_or]
    constructor
    · rintro (rfl | ⟨hd, -, htaken⟩)
      · exact ⟨Or.inl rfl, hc⟩
      · exact ⟨Or.inr hd, htaken⟩
    · rintro ⟨hd, htaken⟩
      by_cases hdc : d = c
      · exact Or.inl hdc
      · exact Or.inr ⟨hd.resolve_left hdc, hdc, htaken⟩

theorem nodup_distinctFrom (taken colors : List (Rgb UInt8)) : (distinctFrom taken colors).Nodup := by
  fun_induction distinctFrom taken colors with
  | case1 taken => exact List.nodup_nil
  | case2 taken c cs hc ih => exact ih
  | case3 taken c cs hc ih =>
    refine List.nodup_cons.2 ⟨?_, ih⟩
    rw [mem_distinctFrom]
    exact fun h => h.2 List.mem_cons_self

theorem mem_worst {rs : Residuals Rat} {palette : Option Int} {taken : List (Rgb UInt8)} {d : Rgb UInt8} :
    d ∈ worst rs palette taken ↔
      (∃ x ∈ rs, 0 < x.2.error ∧ (∀ p, palette = some p → x.2.palette = p) ∧ x.1.color = d) ∧ d ∉ taken := by
  have hworst : worst rs palette taken = distinctFrom taken ((((rs.filter fun x =>
      decide (Scalar.ofNat 0 < x.2.error) && (palette.isNone || palette == some (x.2.palette : Int))).map fun x =>
        (x.2.error * Scalar.ofNat x.1.count, x.1.color)).mergeSort fun a b => Pick.descends a.1 b.1).map Prod.snd) := rfl
  have hpalette : ∀ x : Entry × Residual Rat, (palette.isNone || palette == some (x.2.palette : Int)) = true ↔
      ∀ p, palette = some p → x.2.palette = p := by
    intro x
    cases palette with
    | none => simp
    | some p =>
      simp only [Option.isNone_some, Bool.false_or, beq_iff_eq, Option.some.injEq, forall_eq']
      exact eq_comm
  rw [hworst, mem_distinctFrom]
  refine and_congr_left fun _ => ?_
  simp only [List.mem_map, List.mem_mergeSort, List.mem_filter, Bool.and_eq_true, decide_eq_true_eq, hpalette, Scalar.ofNat_rat,
    Nat.cast_zero]
  constructor
  · rintro ⟨_, ⟨x, ⟨hx, herror, hp⟩, rfl⟩, rfl⟩
    exact ⟨x, hx, herror, hp, rfl⟩
  · rintro ⟨x, hx, herror, hp, rfl⟩
    exact ⟨_, ⟨x, ⟨hx, herror, hp⟩, rfl⟩, rfl⟩

theorem nodup_worst {α : Type} [Scalar α] (rs : Residuals α) (palette : Option Int) (taken : List (Rgb UInt8)) :
    (worst rs palette taken).Nodup := nodup_distinctFrom _ _

/-! ## Weak slots -/

variable (factor : Rat) (s : PaletteSet Rat) (rs : Residuals Rat) (p : Nat)

/-- The mean contribution of the slots that a palette has for itself. -/
def ownMean : Rat := (∑ k ∈ Finset.Ico s.firstFree s.slots, contribution rs p k) / (s.slots - s.firstFree : Nat)

/-- A slot that a palette has for itself contributes less than a share of the mean. -/
def IsWeak (k : Nat) : Prop :=
  (s.firstFree ≤ k ∧ k < s.slots) ∧ 0 < ownMean s rs p ∧ contribution rs p k < factor * ownMean s rs p

/-- The slots to reseed, as the contributions of a palette give them. -/
def weakOf : List Nat := weakSlots factor s.firstFree ((contributions s rs).getD p [])

variable {factor s rs p}

theorem own_contributions (hp : p < s.size) :
    ((contributions s rs).getD p []).drop s.firstFree =
      (List.range (s.slots - s.firstFree)).map fun i => contribution rs p (s.firstFree + i) := by
  have hrow : (contributions s rs).getD p [] = (List.range s.slots).map (contribution rs p) := by
    simp [contributions, List.getD, hp]
  rw [hrow]
  apply List.ext_getElem
  · simp
  · intro i h1 h2
    simp

theorem mean_own_contributions (hp : p < s.size) :
    Scalar.mean (((contributions s rs).getD p []).drop s.firstFree) = ownMean s rs p := by
  rw [own_contributions hp, Scalar.mean, Scalar.pairwiseSum_rat, Scalar.ofNat_rat, List.length_map, List.length_range, ownMean,
    Finset.sum_Ico_eq_sum_range]
  rfl

/-- The contributions of the slots that a palette has for itself, each with its place among them. -/
theorem zipIdx_own_contributions (hp : p < s.size) :
    (((contributions s rs).getD p []).drop s.firstFree).zipIdx =
      (List.range (s.slots - s.firstFree)).map fun i => (contribution rs p (s.firstFree + i), i) := by
  rw [own_contributions hp]
  apply List.ext_getElem
  · simp
  · intro i h1 h2
    simp

theorem weakOf_eq (hp : p < s.size) :
    weakOf factor s rs p = if ownMean s rs p ≤ 0 then [] else
      ((((List.range (s.slots - s.firstFree)).map fun i => (contribution rs p (s.firstFree + i), i)).filter fun v =>
        decide (v.1 < factor * ownMean s rs p)).mergeSort fun a b => Pick.ascends a.1 b.1).map fun v => s.firstFree + v.2 := by
  rw [← mean_own_contributions hp, ← zipIdx_own_contributions hp]
  rfl

theorem mem_weakOf (hp : p < s.size) {k : Nat} : k ∈ weakOf factor s rs p ↔ IsWeak factor s rs p k := by
  rw [weakOf_eq hp, IsWeak]
  by_cases hmean : ownMean s rs p ≤ 0
  · rw [if_pos hmean]
    simp [not_lt.2 hmean]
  · rw [if_neg hmean]
    simp only [List.mem_map, List.mem_mergeSort, List.mem_filter, List.mem_range, decide_eq_true_eq, not_le.1 hmean, true_and]
    constructor
    · rintro ⟨_, ⟨⟨i, hi, rfl⟩, hlt⟩, rfl⟩
      exact ⟨by omega, hlt⟩
    · rintro ⟨hk, hlt⟩
      have hki : s.firstFree + (k - s.firstFree) = k := by omega
      exact ⟨_, ⟨⟨k - s.firstFree, by omega, rfl⟩, by rwa [hki]⟩, hki⟩

theorem nodup_weakOf (hp : p < s.size) : (weakOf factor s rs p).Nodup := by
  rw [weakOf_eq hp]
  split
  · exact List.nodup_nil
  · rw [((List.mergeSort_perm _ _).map _).nodup_iff]
    refine (List.filter_sublist.map fun v : Rat × Nat => s.firstFree + v.2).nodup ?_
    rw [List.map_map]
    exact List.nodup_range.map (add_right_injective s.firstFree)

end Reseed

/-! ## Missed colours -/

namespace Reseed

section

variable {ts : TileSet} {s : PaletteSet Rat}

/-- The residuals of tiles with their palettes. -/
def residualsOf (ts : TileSet) (s : PaletteSet Rat) (a : Fin ts.tiles.length → Fin s.size) : Residuals Rat :=
  residuals ts s (List.ofFn fun b => (a b).val)

/-- A colour occurs in a tile of a palette, and the palette does not have it among its candidates. -/
def Missed (ts : TileSet) (s : PaletteSet Rat) (a : Fin ts.tiles.length → Fin s.size) (p : Fin s.size) (d : Rgb UInt8) : Prop :=
  (∃ b, a b = p ∧ d ∈ (ts.tiles.get b).histogram.map Prod.fst) ∧ Rgb.ofBytes d ∉ s.candidatesOf p

theorem mem_residualsOf (hts : ts.InOrder) (a : Fin ts.tiles.length → Fin s.size) {x : Entry × Residual Rat} :
    x ∈ residualsOf ts s a ↔
      ∃ b, ∃ e ∈ TileSet.tileEntries (ts.tiles.get b), x = (e, Residual.ofEntry s (a b) e) := by
  rw [residualsOf, residuals_eq, TileSet.entries]
  simp only [List.mem_map, List.mem_flatMap]
  constructor
  · rintro ⟨e, ⟨tile, htile, he⟩, rfl⟩
    obtain ⟨i, hi, rfl⟩ := List.getElem_of_mem htile
    exact ⟨⟨i, hi⟩, e, he, by rw [assigned_of_mem_tileEntries hts a (b := ⟨i, hi⟩) he]⟩
  · rintro ⟨b, e, he, rfl⟩
    exact ⟨e, ⟨_, List.getElem_mem b.isLt, he⟩, by rw [assigned_of_mem_tileEntries hts a he]⟩

/-- Missed colours are those with a positive error. -/
theorem missed_iff (hts : ts.InOrder) (hc : 0 < s.candidateCount) (a : Fin ts.tiles.length → Fin s.size) (p : Fin s.size)
    (d : Rgb UInt8) :
    Missed ts s a p d ↔ ∃ x ∈ residualsOf ts s a, 0 < x.2.error ∧ x.2.palette = p ∧ x.1.color = d := by
  constructor
  · rintro ⟨⟨b, rfl, hd⟩, hmissed⟩
    obtain ⟨⟨d, n⟩, hdn, rfl⟩ := List.mem_map.1 hd
    refine ⟨_, (mem_residualsOf hts a).2 ⟨b, ⟨d, n, (ts.tiles.get b).index⟩, List.mem_map.2 ⟨_, hdn, rfl⟩, rfl⟩, ?_, ?_, rfl⟩
    · rw [Residual.error_ofEntry _ (a b).isLt hc, Fit.leastSquare_pos_iff (PaletteSet.candidatesOf_ne_nil (a b).isLt hc)]
      exact hmissed
    · exact Residual.ofEntry_palette _
  · rintro ⟨x, hx, herror, hpalette, rfl⟩
    obtain ⟨b, e, he, rfl⟩ := (mem_residualsOf hts a).1 hx
    rw [Residual.error_ofEntry _ (a b).isLt hc, Fit.leastSquare_pos_iff (PaletteSet.candidatesOf_ne_nil (a b).isLt hc)] at herror
    rw [Residual.ofEntry_palette] at hpalette
    obtain rfl : a b = p := Fin.ext hpalette
    obtain ⟨h, hh, rfl⟩ := List.mem_map.1 he
    exact ⟨⟨b, rfl, List.mem_map_of_mem hh⟩, herror⟩

theorem mem_worst_palette (hts : ts.InOrder) (hc : 0 < s.candidateCount) (a : Fin ts.tiles.length → Fin s.size)
    (p : Fin s.size) {taken : List (Rgb UInt8)} {d : Rgb UInt8} :
    d ∈ worst (residualsOf ts s a) (some (p.val : Int)) taken ↔ Missed ts s a p d ∧ d ∉ taken := by
  rw [mem_worst, missed_iff hts hc]
  simp only [Option.some.injEq, forall_eq', Nat.cast_inj]

theorem exists_missed_of_mem_worst (hts : ts.InOrder) (hc : 0 < s.candidateCount) {a : Fin ts.tiles.length → Fin s.size}
    {taken : List (Rgb UInt8)} {d : Rgb UInt8} (h : d ∈ worst (residualsOf ts s a) none taken) : ∃ p, Missed ts s a p d := by
  obtain ⟨⟨x, hx, herror, -, hcolor⟩, -⟩ := mem_worst.1 h
  obtain ⟨b, e, -, rfl⟩ := (mem_residualsOf hts a).1 hx
  exact ⟨a b, (missed_iff hts hc a (a b) d).2 ⟨_, hx, herror, Residual.ofEntry_palette _, hcolor⟩⟩

end

/-! ## What is written -/

section

variable (factor : Rat) (s : PaletteSet Rat) (rs : Residuals Rat) (p : Nat) (taken : List (Rgb UInt8))

/-- The slots of a palette to reseed, each with its seed; none where a palette has no two slots for itself. -/
def plan : List (Nat × Rgb UInt8) :=
  if s.slots - s.firstFree < 2 then [] else (weakOf factor s rs p).zip (worst rs (some (p : Int)) taken)

variable {factor s rs p taken}

theorem plan_eq (h : 2 ≤ s.slots - s.firstFree) :
    plan factor s rs p taken = (weakOf factor s rs p).zip (worst rs (some (p : Int)) taken) := by
  rw [plan, if_neg (by omega)]

theorem plan_subset : plan factor s rs p taken ⊆ (weakOf factor s rs p).zip (worst rs (some (p : Int)) taken) := by
  rw [plan]
  split
  · exact List.nil_subset _
  · exact List.Subset.refl _

theorem mem_plan (hp : p < s.size) {k : Nat} {d : Rgb UInt8} (h : (k, d) ∈ plan factor s rs p taken) :
    IsWeak factor s rs p k ∧ d ∈ worst rs (some (p : Int)) taken :=
  ⟨(mem_weakOf hp).1 (List.of_mem_zip (plan_subset h)).1, (List.of_mem_zip (plan_subset h)).2⟩

theorem firstFree_le_of_mem_plan (hp : p < s.size) : ∀ w ∈ plan factor s rs p taken, s.firstFree ≤ w.1 :=
  fun _ hw => (mem_plan hp hw).1.1.1

theorem nodup_plan_slots (hp : p < s.size) : ((plan factor s rs p taken).map Prod.fst).Nodup := by
  rw [plan]
  split
  · exact List.nodup_nil
  · rw [List.zip_eq_zip_take_min, List.map_fst_zip (by simp)]
    exact (nodup_weakOf hp).sublist (List.take_sublist _ _)

theorem nodup_plan_seeds : ((plan factor s rs p taken).map Prod.snd).Nodup := by
  rw [plan]
  split
  · exact List.nodup_nil
  · rw [List.zip_eq_zip_take_min, List.map_snd_zip (by simp)]
    exact (nodup_worst rs _ taken).sublist (List.take_sublist _ _)

/-- Writes to the slots of a palette and counts them. -/
def Changed.write (x : Changed Rat) (p : Nat) (writes : List (Nat × Rgb UInt8)) : Changed Rat :=
  ⟨x.set.writeBytes p writes, { x.counts with colors := x.counts.colors + writes.length }⟩

theorem foldl_put (p : Nat) (writes : List (Nat × Rgb UInt8)) (x : Changed Rat) :
    writes.foldl (fun x w => put x p w.1 w.2) x = x.write p writes := by
  induction writes generalizing x with
  | nil => rfl
  | cons w writes ih =>
    rw [List.foldl_cons, ih, Changed.write, Changed.write, List.length_cons, Nat.add_comm writes.length, ← Nat.add_assoc]
    rfl

theorem reseedPalette_eq (hmany : 2 ≤ s.slots - s.firstFree) {x : Changed Rat} (hx : s.SameShape x.set) :
    reseedPalette factor rs (contributions s rs) taken x p = x.write p (plan factor s rs p taken) := by
  rw [plan_eq hmany, reseedPalette, PaletteSet.firstFree, hx.zero_eq, ← PaletteSet.firstFree, weakOf]
  cases weakSlots factor s.firstFree ((contributions s rs).getD p []) with
  | nil => rfl
  | cons k weak => exact foldl_put p _ x

theorem foldl_reseedPalette_eq (hmany : 2 ≤ s.slots - s.firstFree) (palettes : List Nat) {x : Changed Rat}
    (hx : s.SameShape x.set) :
    palettes.foldl (reseedPalette factor rs (contributions s rs) taken) x =
      palettes.foldl (fun y p => y.write p (plan factor s rs p taken)) x := by
  induction palettes generalizing x with
  | nil => rfl
  | cons p palettes ih =>
    rw [List.foldl_cons, List.foldl_cons, reseedPalette_eq hmany hx]
    exact ih (hx.trans (x.set.writeBytes_sameShape p _))

/-- All palettes are written by their plans, which are empty where there is nothing to choose among. -/
theorem foldl_plan_eq {x : Changed Rat} (hx : s.SameShape x.set) :
    (if s.slots - s.firstFree < 2 then x
      else (List.range x.set.size).foldl (reseedPalette factor rs (contributions s rs) taken) x) =
      (List.range s.size).foldl (fun y p => y.write p (plan factor s rs p taken)) x := by
  by_cases hfew : s.slots - s.firstFree < 2
  · have hnone : ∀ p, plan factor s rs p taken = [] := fun p => by rw [plan, if_pos hfew]
    rw [if_pos hfew]
    simp only [hnone]
    exact (List.foldl_fixed' (fun _ => rfl) _).symm
  · rw [if_neg hfew, foldl_reseedPalette_eq (not_lt.1 hfew) _ hx, hx.size_eq]

end

/-! ## One palette after the other -/

section

variable {s : PaletteSet Rat} {writes : Nat → List (Nat × Rgb UInt8)}

theorem counts_foldl_write (palettes : List Nat) (x : Changed Rat) :
    (palettes.foldl (fun y p => y.write p (writes p)) x).counts =
      { x.counts with colors := x.counts.colors + (palettes.map fun p => (writes p).length).sum } := by
  induction palettes generalizing x with
  | nil => rfl
  | cons p palettes ih =>
    rw [List.foldl_cons, ih, List.map_cons, List.sum_cons, ← Nat.add_assoc]
    rfl

variable (hown : ∀ p < s.size, ∀ w ∈ writes p, s.firstFree ≤ w.1) (hnodup : ∀ p < s.size, ((writes p).map Prod.fst).Nodup)
include hown hnodup

/-- Writing to the palettes one after the other does to each of them what its own writes do. -/
theorem color?_foldl_write {x : Changed Rat} (hx : s.SameShape x.set) {n : Nat} (hn : n ≤ s.size) (q k : Nat) :
    ((List.range n).foldl (fun y p => y.write p (writes p)) x).set.color? q k =
      if q < n then (x.set.writeBytes q (writes q)).color? q k else x.set.color? q k := by
  induction n generalizing q k with
  | zero => rfl
  | succ n ih =>
    have ih := ih (by omega)
    have hy : s.SameShape ((List.range n).foldl (fun y p => y.write p (writes p)) x).set := by
      refine List.foldlRecOn _ _ (motive := fun y : Changed Rat => s.SameShape y.set) hx ?_
      intro y hy p _
      exact hy.trans (y.set.writeBytes_sameShape p _)
    have hfree : ∀ t : PaletteSet Rat, s.SameShape t → ∀ w ∈ writes n, t.firstFree ≤ w.1 := by
      intro t ht w hw
      rw [PaletteSet.firstFree, ht.zero_eq]
      exact hown n hn w hw
    rw [List.range_succ, List.foldl_append, List.foldl_cons, List.foldl_nil]
    generalize (List.range n).foldl (fun y p => y.write p (writes p)) x = y at ih hy
    rw [Changed.write]
    by_cases hq : q = n
    · subst hq
      rw [if_pos (Nat.lt_succ_self q)]
      refine PaletteSet.color?_writeBytes_congr q (hfree y.set hy) (hfree x.set hx) (hnodup q hn) ?_
      rw [ih q k, if_neg (lt_irrefl q)]
    · rw [PaletteSet.color?_writeBytes_of_ne n (hfree y.set hy) fun h => absurd h hq, ih q k]
      by_cases hqn : q < n
      · rw [if_pos hqn, if_pos (by omega)]
      · rw [if_neg hqn, if_neg (by omega)]

end

end Reseed

/-! ## The shared slot -/

namespace PaletteSet

variable (s : PaletteSet Rat)

/-- The palettes with the shared slot reseeded, if there is a seed for it. -/
def reshared (seed : Option (Rgb UInt8)) : PaletteSet Rat := seed.elim s fun d => s.setColor 0 0 (Rgb.ofBytes d)

variable {s} {seed : Option (Rgb UInt8)}

theorem reshared_sameShape : s.SameShape (s.reshared seed) := by
  cases seed with
  | none => exact .refl s
  | some d => exact (SameShape.refl s).changeColor 0 0 _

theorem color?_reshared (h : ∀ d, seed = some d → s.zero = .shared) (q k : Nat) :
    (s.reshared seed).color? q k =
      (s.color? q k).map fun old => if s.isShared k then (seed.map Rgb.ofBytes).getD old else old := by
  cases seed with
  | none => simp [reshared]
  | some d =>
    have hz : s.zero = .shared := h d rfl
    have hfixed : ¬ s.isFixed k := by simp [isFixed, hz, ColorZero.isTransparent]
    have hhome : s.home q k = s.home 0 0 ↔ s.isShared k := by
      by_cases hk : k = 0
      · simp [home, isShared, hz, hk]
      · simp [home, isShared, hz, hk]
    simp only [reshared, Option.elim_some, s.color?_setColor 0 0 _ hfixed, hhome, Option.map_some, Option.getD_some]

end PaletteSet

namespace Reseed

/-- Reseeds the shared slot, if there is a seed for it, and counts it. -/
def Changed.reshare (x : Changed Rat) (seed : Option (Rgb UInt8)) : Changed Rat :=
  ⟨x.set.reshared seed, { x.counts with colors := x.counts.colors + seed.toList.length }⟩

section

variable (factor : Rat) (rs : Residuals Rat) (contrib : List (List Rat)) (x : Changed Rat)

/-- The shared slot is reseeded with the worst colour of all, or not at all. -/
theorem reseedShared_cases :
    ∃ seed : Option (Rgb UInt8), reseedShared factor rs contrib x = (x.reshare seed, seed.toList) ∧
      ∀ d, seed = some d → d ∈ worst rs none [] := by
  simp only [reseedShared]
  split
  · exact ⟨none, rfl, by simp⟩
  split
  · exact ⟨none, rfl, by simp⟩
  split
  · exact ⟨none, rfl, by simp⟩
  · rename_i c rest hworst
    refine ⟨some c, rfl, ?_⟩
    rintro d hd
    rw [hworst, ← Option.some.inj hd]
    exact List.mem_cons_self

/-- Only a shared slot has a seed. -/
theorem exists_seed :
    ∃ seed : Option (Rgb UInt8),
      (if x.set.zero == .shared then reseedShared factor rs contrib x else (x, [])) = (x.reshare seed, seed.toList) ∧
      ∀ d, seed = some d → x.set.zero = .shared ∧ d ∈ worst rs none [] := by
  by_cases hz : x.set.zero = .shared
  · obtain ⟨seed, hreseed, hworst⟩ := reseedShared_cases factor rs contrib x
    rw [if_pos (by simpa using hz)]
    exact ⟨seed, hreseed, fun d hd => ⟨hz, hworst d hd⟩⟩
  · rw [if_neg (by simpa using hz)]
    exact ⟨none, rfl, by simp⟩

end

section

variable (factor : Rat) (ts : TileSet) (assigned : List Nat) (x : Changed Rat)

/-- **Reseeding colours.** First the shared slot may get a seed, then every palette is written by its own plan. -/
theorem reseedColors_eq :
    ∃ seed : Option (Rgb UInt8),
      (∀ d, seed = some d → x.set.zero = .shared ∧ d ∈ worst (residuals ts x.set assigned) none []) ∧
      reseedColors factor ts assigned x = (List.range x.set.size).foldl
        (fun y p => y.write p (plan factor x.set (residuals ts x.set assigned) p seed.toList)) (x.reshare seed) := by
  generalize hrs : residuals ts x.set assigned = rs
  have hcolors : reseedColors factor ts assigned x =
      if decide (x.set.slots - x.set.firstFree < 2) && !(x.set.zero == .shared) then x
      else
        let y := if x.set.zero == .shared then reseedShared factor rs (contributions x.set rs) x else (x, [])
        if x.set.slots - x.set.firstFree < 2 then y.1
        else (List.range y.1.set.size).foldl (reseedPalette factor rs (contributions x.set rs) y.2) y.1 := by
    rw [← hrs]
    rfl
  obtain ⟨seed, hshared, hseed⟩ := exists_seed factor rs (contributions x.set rs) x
  refine ⟨seed, hseed, ?_⟩
  have hshape : x.set.SameShape (x.reshare seed).set := PaletteSet.reshared_sameShape
  rw [hcolors, hshared, ← foldl_plan_eq hshape]
  by_cases hnothing : decide (x.set.slots - x.set.firstFree < 2) && !(x.set.zero == .shared)
  · rw [if_pos hnothing]
    simp only [Bool.and_eq_true, decide_eq_true_eq, Bool.not_eq_true', beq_eq_false_iff_ne] at hnothing
    rw [if_pos hnothing.1]
    cases seed with
    | none => rfl
    | some d => exact absurd (hseed d rfl).1 hnothing.2
  · rw [if_neg hnothing]

variable {factor ts assigned x} {seed : Option (Rgb UInt8)} {y : Changed Rat}
  (hy : y = (List.range x.set.size).foldl
    (fun y p => y.write p (plan factor x.set (residuals ts x.set assigned) p seed.toList)) (x.reshare seed))
include hy

/-- Slot by slot, a palette is what its own plan makes of it. -/
theorem color?_reseeded : ∀ q < x.set.size, ∀ k, y.set.color? q k =
    ((x.set.reshared seed).writeBytes q (plan factor x.set (residuals ts x.set assigned) q seed.toList)).color? q k := by
  intro q hq k
  rw [hy, color?_foldl_write (fun p hp => firstFree_le_of_mem_plan hp) (fun p hp => nodup_plan_slots hp)
    (x := x.reshare seed) PaletteSet.reshared_sameShape le_rfl, if_pos hq]
  rfl

/-- All writes are counted. -/
theorem counts_reseeded : y.counts = { x.counts with colors := x.counts.colors + (seed.toList.length +
    ((List.range x.set.size).map fun p =>
      (plan factor x.set (residuals ts x.set assigned) p seed.toList).length).sum) } := by
  rw [hy, counts_foldl_write, ← Nat.add_assoc]
  rfl

end

end Reseed

/-! ## Which slots change -/

theorem Rgb.ofBytes_injective : Function.Injective (Rgb.ofBytes : Rgb UInt8 → Rgb Rat) := by
  rintro ⟨r, g, b⟩ ⟨r', g', b'⟩ h
  simpa [Rgb.ofBytes, Rgb.map, Scalar.ofNat_rat, UInt8.toNat_inj] using h

theorem ncard_setOf_mem {β : Type} {l : List β} (h : l.Nodup) : {x | x ∈ l}.ncard = l.length := by
  classical
  rw [← List.coe_toFinset, Set.ncard_coe_finset, List.toFinset_card_of_nodup h]

theorem PaletteSet.mem_candidatesOf_of_color? {s : PaletteSet Rat} {p k : Nat} {c : Rgb Rat} (hk : s.firstCandidate ≤ k)
    (h : s.color? p k = some c) : c ∈ s.candidatesOf p := by
  obtain ⟨i, rfl⟩ := Nat.exists_eq_add_of_le hk
  rw [s.color?_candidate] at h
  exact List.mem_of_getElem? h

theorem PaletteSet.not_isShared_of_le {α : Type} {s : PaletteSet α} {k : Nat} (h : s.firstFree ≤ k) : ¬ s.isShared k := by
  rw [isShared, Bool.and_eq_true, beq_iff_eq, beq_iff_eq]
  rintro ⟨hz, rfl⟩
  rw [firstFree, hz] at h
  exact absurd h (by decide)

/-- Where colours differ between two sets, with a shared slot taken once. -/
def PaletteSet.changedHomes (s t : PaletteSet Rat) : Set (Nat × Nat) :=
  {h | ∃ p : Fin s.size, ∃ k, t.color? p k ≠ s.color? p k ∧ s.home p k = h}

namespace Reseed

section

variable (factor : Rat) (s : PaletteSet Rat) (rs : Residuals Rat) (seed : Option (Rgb UInt8))

/-- The places that are written: the shared slot if it has a seed, and what the plans of the palettes name. -/
def writtenPlaces : List (Nat × Nat) :=
  seed.toList.map (fun _ => (0, 0)) ++
    (List.range s.size).flatMap fun p => (plan factor s rs p seed.toList).map fun w => (p, w.1)

theorem length_writtenPlaces : (writtenPlaces factor s rs seed).length =
    seed.toList.length + ((List.range s.size).map fun p => (plan factor s rs p seed.toList).length).sum := by
  simp [writtenPlaces, List.length_flatMap]

variable {factor s rs seed}

theorem nodup_writtenPlaces (hseed : ∀ d, seed = some d → s.zero = .shared) : (writtenPlaces factor s rs seed).Nodup := by
  rw [writtenPlaces, List.nodup_append']
  refine ⟨by cases seed <;> simp, ?_, ?_⟩
  · refine List.nodup_flatMap.2 ⟨?_, ?_⟩
    · intro p hp
      have hslots : ((plan factor s rs p seed.toList).map Prod.fst).Nodup := nodup_plan_slots (List.mem_range.1 hp)
      have hplaces := hslots.map (Prod.mk_right_injective p)
      rwa [List.map_map] at hplaces
    · refine List.nodup_range.imp ?_
      intro p q hpq h hp hq
      obtain ⟨w, -, rfl⟩ := List.mem_map.1 hp
      obtain ⟨v, -, hv⟩ := List.mem_map.1 hq
      exact hpq (congrArg Prod.fst hv).symm
  · intro h hshared hplan
    obtain ⟨d, hs, rfl⟩ := List.mem_map.1 hshared
    obtain ⟨p, hp, hplan⟩ := List.mem_flatMap.1 hplan
    obtain ⟨w, hw, hzero⟩ := List.mem_map.1 hplan
    have hfree : s.firstFree ≤ w.1 := firstFree_le_of_mem_plan (List.mem_range.1 hp) w hw
    have hslot : w.1 = 0 := congrArg Prod.snd hzero
    refine PaletteSet.not_isShared_of_le hfree ?_
    simp [PaletteSet.isShared, hslot, hseed d (by simpa using hs)]

end

section

variable {factor : Rat} {ts : TileSet} (hts : ts.InOrder) {s y : PaletteSet Rat} (hc : 0 < s.candidateCount)
  {a : Fin ts.tiles.length → Fin s.size} {seed : Option (Rgb UInt8)} (hseed : ∀ d, seed = some d → s.zero = .shared)
  (hy : ∀ q < s.size, ∀ k, y.color? q k =
    ((s.reshared seed).writeBytes q (plan factor s (residualsOf ts s a) q seed.toList)).color? q k)
  (p : Fin s.size)

include hy

theorem color?_of_mem_plan {k : Nat} {d : Rgb UInt8} (h : (k, d) ∈ plan factor s (residualsOf ts s a) p seed.toList) :
    y.color? p k = some (Rgb.ofBytes d) := by
  have hshape : s.SameShape (s.reshared seed) := PaletteSet.reshared_sameShape
  have hfree : ∀ w ∈ plan factor s (residualsOf ts s a) p seed.toList, (s.reshared seed).firstFree ≤ w.1 := by
    rw [PaletteSet.firstFree, hshape.zero_eq]
    exact firstFree_le_of_mem_plan p.isLt
  obtain ⟨c, hcolor⟩ := (s.reshared seed).exists_color? (p := p) (k := k) (hshape.size_eq.symm ▸ p.isLt)
    (hshape.slots_eq.symm ▸ (mem_plan p.isLt h).1.1.2)
  rw [hy p p.isLt, PaletteSet.color?_writeBytes_of_mem _ hfree (nodup_plan_slots p.isLt) h, hcolor, Option.map_some]

theorem color?_of_not_mem_plan {k : Nat} (h : ∀ d, (k, d) ∉ plan factor s (residualsOf ts s a) p seed.toList) :
    y.color? p k = (s.reshared seed).color? p k := by
  have hshape : s.SameShape (s.reshared seed) := PaletteSet.reshared_sameShape
  have hfree : ∀ w ∈ plan factor s (residualsOf ts s a) p seed.toList, (s.reshared seed).firstFree ≤ w.1 := by
    rw [PaletteSet.firstFree, hshape.zero_eq]
    exact firstFree_le_of_mem_plan p.isLt
  rw [hy p p.isLt, PaletteSet.color?_writeBytes_of_ne _ hfree]
  rintro - w hw rfl
  exact h w.2 hw

include hseed

/-- The shared slot holds its seed, if there is one. -/
theorem color?_of_isShared {k : Nat} (hk : s.isShared k) :
    y.color? p k = (s.color? p k).map fun old => (seed.map Rgb.ofBytes).getD old := by
  rw [color?_of_not_mem_plan hy p, PaletteSet.color?_reshared hseed]
  · simp only [hk, if_true]
  · intro d hd
    exact PaletteSet.not_isShared_of_le (firstFree_le_of_mem_plan p.isLt _ hd) hk

/-- Slots that are not in the plan of their palette, and not shared, keep their colours. -/
theorem color?_kept {k : Nat} (hk : ¬ s.isShared k) (h : ∀ d, (k, d) ∉ plan factor s (residualsOf ts s a) p seed.toList) :
    y.color? p k = s.color? p k := by
  rw [color?_of_not_mem_plan hy p h, PaletteSet.color?_reshared hseed]
  simp [hk]

include hc

/-- The shared slot holds its seed in every palette. -/
theorem color?_of_seed {d : Rgb UInt8} (hs : seed = some d) {k : Nat} (hk : s.isShared k) :
    y.color? p k = some (Rgb.ofBytes d) := by
  have hzero : k = 0 := by
    simp only [PaletteSet.isShared, Bool.and_eq_true, beq_iff_eq] at hk
    exact hk.2
  have hslots : s.firstCandidate < s.slots := PaletteSet.firstCandidate_lt_slots hc
  obtain ⟨c, hcolor⟩ := s.exists_color? p.isLt (show k < s.slots by omega)
  rw [color?_of_isShared hseed hy p hk, hcolor, hs]
  rfl

include hts

/-- A reseeded slot differs from every other candidate slot of its palette. -/
theorem color?_ne_of_mem_plan {k l : Nat} {d : Rgb UInt8} (h : (k, d) ∈ plan factor s (residualsOf ts s a) p seed.toList)
    (hl : s.firstCandidate ≤ l) (hlk : l ≠ k) : y.color? p l ≠ some (Rgb.ofBytes d) := by
  obtain ⟨hmissed, htaken⟩ := (mem_worst_palette hts hc a p).1 (mem_plan p.isLt h).2
  by_cases hshared : s.isShared l
  · cases hs : seed with
    | none =>
      rw [color?_of_isShared hseed hy p hshared, hs]
      intro hcolor
      refine hmissed.2 (PaletteSet.mem_candidatesOf_of_color? hl ?_)
      simpa using hcolor
    | some e =>
      rw [color?_of_seed hc hseed hy p hs hshared, ne_eq, Option.some.injEq, Rgb.ofBytes_injective.eq_iff]
      rintro rfl
      exact htaken (by simp [hs])
  · by_cases hplan : ∃ e, (l, e) ∈ plan factor s (residualsOf ts s a) p seed.toList
    · obtain ⟨e, he⟩ := hplan
      rw [color?_of_mem_plan hy p he, ne_eq, Option.some.injEq, Rgb.ofBytes_injective.eq_iff]
      rintro rfl
      -- one seed is not used twice
      have hsame := List.inj_on_of_nodup_map nodup_plan_seeds he h rfl
      exact hlk (congrArg Prod.fst hsame)
    · rw [color?_kept hseed hy p hshared (not_exists.1 hplan)]
      exact fun hcolor => hmissed.2 (PaletteSet.mem_candidatesOf_of_color? hl hcolor)

/-- Of the slots that a palette has for itself, those in its plan change. -/
theorem changed_iff {k : Nat} :
    s.firstFree ≤ k ∧ y.color? p k ≠ s.color? p k ↔
      k ∈ (plan factor s (residualsOf ts s a) p seed.toList).map Prod.fst := by
  constructor
  · rintro ⟨hk, hchanged⟩
    by_contra hplan
    refine hchanged (color?_kept hseed hy p (PaletteSet.not_isShared_of_le hk) ?_)
    exact fun d hd => hplan (List.mem_map_of_mem hd)
  · intro hk
    obtain ⟨⟨k, d⟩, hd, rfl⟩ := List.mem_map.1 hk
    obtain ⟨hweak, hworst⟩ := mem_plan p.isLt hd
    refine ⟨hweak.1.1, ?_⟩
    rw [color?_of_mem_plan hy p hd]
    intro hcolor
    exact ((mem_worst_palette hts hc a p).1 hworst).1.2
      (PaletteSet.mem_candidatesOf_of_color? (s.firstCandidate_le_firstFree.trans hweak.1.1) hcolor.symm)

/-- Seeds are the missed colours, apart from the one that the shared slot has got. -/
theorem mem_seeds_iff (d : Rgb UInt8) :
    d ∈ worst (residualsOf ts s a) (some (p.val : Int)) seed.toList ↔
      Missed ts s a p d ∧ ¬ (s.zero = .shared ∧ y.color? p 0 = some (Rgb.ofBytes d)) := by
  rw [mem_worst_palette hts hc]
  refine and_congr_right ?_
  intro hmissed
  rw [not_iff_not]
  constructor
  · intro hd
    have hs : seed = some d := by simpa using hd
    have hz : s.zero = .shared := hseed d hs
    exact ⟨hz, color?_of_seed hc hseed hy p hs (by simp [PaletteSet.isShared, hz])⟩
  · rintro ⟨hz, hcolor⟩
    have hshared : s.isShared 0 := by simp [PaletteSet.isShared, hz]
    cases hs : seed with
    | none =>
      have hfirst : s.firstCandidate = 0 := by rw [PaletteSet.firstCandidate, hz]; rfl
      rw [color?_of_isShared hseed hy p hshared, hs] at hcolor
      refine absurd (PaletteSet.mem_candidatesOf_of_color? hfirst.le ?_) hmissed.2
      simpa using hcolor
    | some e =>
      rw [color?_of_seed hc hseed hy p hs hshared, Option.some.injEq, Rgb.ofBytes_injective.eq_iff] at hcolor
      simp [hcolor]

/-- As many slots of a palette change as there are weak slots and seeds for them. -/
theorem ncard_changed (hmany : 2 ≤ s.slots - s.firstFree) :
    {k | s.firstFree ≤ k ∧ y.color? p k ≠ s.color? p k}.ncard =
      min {k | IsWeak factor s (residualsOf ts s a) p k}.ncard
        {d | Missed ts s a p d ∧ ¬ (s.zero = .shared ∧ y.color? p 0 = some (Rgb.ofBytes d))}.ncard := by
  simp only [changed_iff hts hc hseed hy p, ← mem_weakOf p.isLt, ← mem_seeds_iff hts hc hseed hy p]
  rw [ncard_setOf_mem (nodup_plan_slots p.isLt), ncard_setOf_mem (nodup_weakOf p.isLt), ncard_setOf_mem (nodup_worst _ _ _),
    List.length_map, plan_eq hmany, List.length_zip]

variable (hmissed : ∀ d, seed = some d → ∃ q, Missed ts s a q d)
include hmissed

omit p in
/-- Every write changes a colour: places are written exactly if the colours change there. -/
theorem mem_writtenPlaces {h : Nat × Nat} :
    h ∈ writtenPlaces factor s (residualsOf ts s a) seed ↔ h ∈ s.changedHomes y := by
  rw [writtenPlaces, List.mem_append]
  constructor
  · rintro (hshared | hplan)
    · obtain ⟨d, hs, rfl⟩ := List.mem_map.1 hshared
      rw [Option.mem_toList] at hs
      obtain ⟨p, -, hnew⟩ := hmissed d hs
      have hz : s.zero = .shared := hseed d hs
      have hshared : s.isShared 0 := by simp [PaletteSet.isShared, hz]
      refine ⟨p, 0, ?_, by simp [PaletteSet.home, hshared]⟩
      rw [color?_of_seed hc hseed hy p hs hshared]
      intro hold
      exact hnew (PaletteSet.mem_candidatesOf_of_color? (by rw [PaletteSet.firstCandidate, hz]; rfl) hold.symm)
    · obtain ⟨p, hp, hplan⟩ := List.mem_flatMap.1 hplan
      obtain ⟨w, hw, rfl⟩ := List.mem_map.1 hplan
      obtain ⟨hfree, hchanged⟩ :=
        (changed_iff hts hc hseed hy ⟨p, List.mem_range.1 hp⟩).2 (List.mem_map_of_mem hw)
      exact ⟨⟨p, List.mem_range.1 hp⟩, w.1, hchanged, by simp [PaletteSet.home, PaletteSet.not_isShared_of_le hfree]⟩
  · rintro ⟨p, k, hchanged, rfl⟩
    by_cases hshared : s.isShared k
    · left
      cases hs : seed with
      | none =>
        rw [color?_of_isShared hseed hy p hshared, hs] at hchanged
        simp at hchanged
      | some d => simp [PaletteSet.home, hshared]
    · right
      obtain ⟨d, hd⟩ : ∃ d, (k, d) ∈ plan factor s (residualsOf ts s a) p seed.toList := by
        by_contra hplan
        exact hchanged (color?_kept hseed hy p hshared (not_exists.1 hplan))
      rw [PaletteSet.home, if_neg hshared]
      exact List.mem_flatMap.2 ⟨p, List.mem_range.2 p.isLt, List.mem_map.2 ⟨_, hd, rfl⟩⟩

omit p in
/-- As many colours change as are written, where the shared slot counts once. -/
theorem ncard_changed_homes :
    (s.changedHomes y).ncard = seed.toList.length +
      ((List.range s.size).map fun p => (plan factor s (residualsOf ts s a) p seed.toList).length).sum := by
  have hplaces : s.changedHomes y = {h | h ∈ writtenPlaces factor s (residualsOf ts s a) seed} := by
    ext h
    exact (mem_writtenPlaces hts hc hseed hy hmissed).symm
  rw [hplaces, ncard_setOf_mem (nodup_writtenPlaces hseed), length_writtenPlaces]

end

/-- **Only weak colours are reseeded.** Whatever palettes the tiles are assigned to, reseeding colours keeps the shape of
the palettes and counts the colours that change. A slot that changes is the shared one, which then holds one colour of the
image in all palettes, or a slot that its palette has for itself and that contributes less than the asked share of the mean of
such slots. This slot then holds a colour of a tile of its palette that no other candidate slot of the palette holds. And in
every palette as many slots change as there are weak ones and colours to put there. -/
theorem reseedColors_weak_only (c : Canvas) (x : Changed Rat) (hc : 0 < x.set.candidateCount) (factor : Rat)
    (a : Fin c.tiles.tiles.length → Fin x.set.size) :
    let z := reseedColors factor c.tiles (List.ofFn fun b => (a b).val) x
    x.set.SameShape z.set ∧
      z.counts = { x.counts with colors := x.counts.colors + (x.set.changedHomes z.set).ncard } ∧
      ∀ p : Fin x.set.size,
        (∀ k, z.set.color? p k ≠ x.set.color? p k →
          (x.set.isShared k ∧ ∃ d : Rgb UInt8, (∃ b, d ∈ (c.tiles.tiles.get b).histogram.map Prod.fst) ∧
            ∀ q < x.set.size, z.set.color? q k = some (Rgb.ofBytes d)) ∨
          IsWeak factor x.set (residualsOf c.tiles x.set a) p k ∧ ∃ d : Rgb UInt8, z.set.color? p k = some (Rgb.ofBytes d) ∧
            (∃ b, a b = p ∧ d ∈ (c.tiles.tiles.get b).histogram.map Prod.fst) ∧
            ∀ l, x.set.firstCandidate ≤ l → l ≠ k → z.set.color? p l ≠ some (Rgb.ofBytes d)) ∧
        (2 ≤ x.set.slots - x.set.firstFree →
          {k | x.set.firstFree ≤ k ∧ z.set.color? p k ≠ x.set.color? p k}.ncard =
            min {k | IsWeak factor x.set (residualsOf c.tiles x.set a) p k}.ncard
              {d | Missed c.tiles x.set a p d ∧
                ¬ (x.set.zero = .shared ∧ z.set.color? p 0 = some (Rgb.ofBytes d))}.ncard) := by
  intro z
  obtain ⟨seed, hspec, hz⟩ := reseedColors_eq factor c.tiles (List.ofFn fun b => (a b).val) x
  have hy := color?_reseeded hz
  have hseed : ∀ d, seed = some d → x.set.zero = .shared := fun d hd => (hspec d hd).1
  have hmissed : ∀ d, seed = some d → ∃ q, Missed c.tiles x.set a q d :=
    fun d hd => exists_missed_of_mem_worst c.tiles_inOrder hc (hspec d hd).2
  refine ⟨reseedColors_induct (fun _ _ _ _ h => h.changeColor _ _ _) (.refl _) factor c.tiles _, ?_, ?_⟩
  · rw [ncard_changed_homes c.tiles_inOrder hc hseed hy hmissed]
    exact counts_reseeded hz
  intro p
  refine ⟨?_, ncard_changed c.tiles_inOrder hc hseed hy p⟩
  intro k hchanged
  by_cases hshared : x.set.isShared k
  · left
    refine ⟨hshared, ?_⟩
    cases hs : seed with
    | none =>
      rw [color?_of_isShared hseed hy p hshared, hs] at hchanged
      simp at hchanged
    | some d =>
      obtain ⟨-, ⟨b, -, hd⟩, -⟩ := hmissed d hs
      exact ⟨d, ⟨b, hd⟩, fun q hq => color?_of_seed hc hseed hy ⟨q, hq⟩ hs hshared⟩
  · right
    obtain ⟨d, hd⟩ : ∃ d, (k, d) ∈ plan factor x.set (residualsOf c.tiles x.set a) p seed.toList := by
      by_contra hplan
      exact hchanged (color?_kept hseed hy p hshared (not_exists.1 hplan))
    obtain ⟨hweak, hworst⟩ := mem_plan p.isLt hd
    obtain ⟨⟨htile, -⟩, -⟩ := (mem_worst_palette c.tiles_inOrder hc a p).1 hworst
    exact ⟨hweak, d, color?_of_mem_plan hy p hd, htile, fun l => color?_ne_of_mem_plan c.tiles_inOrder hc hseed hy p hd⟩

/-- Two palettes with a common first colour, which no tile needs. -/
def commonSet : PaletteSet Rat where
  zero := .shared
  slots := 4
  palettes := [#v[⟨0, 0, 0⟩, ⟨0, 90, 40⟩, ⟨60, 0, 40⟩, ⟨60, 0, 40⟩], #v[⟨0, 0, 0⟩, ⟨0, 0, 0⟩, ⟨150, 0, 40⟩, ⟨150, 90, 40⟩]]

/-- The tiles of the small canvas, with the two palettes in turn. -/
def inTurn (b : Fin Compose.smallCanvas.tiles.tiles.length) : Fin commonSet.size := Fin.ofNat 2 b

/-- The common colour and the next one of the second palette are reseeded. The first palette has weak colours too, but the
only colour that it misses has gone to the common slot. -/
theorem reseedColors_weak_only_common :
    let z := reseedColors (1 / 2) Compose.smallCanvas.tiles [0, 1] ⟨commonSet, ⟨0, 0⟩⟩
    0 < commonSet.candidateCount ∧
      z.set.toLists = [[⟨60, 90, 40⟩, ⟨0, 90, 40⟩, ⟨60, 0, 40⟩, ⟨60, 0, 40⟩],
        [⟨60, 90, 40⟩, ⟨120, 0, 40⟩, ⟨150, 0, 40⟩, ⟨150, 90, 40⟩]] ∧
      z.counts = ⟨2, 0⟩ ∧ (commonSet.changedHomes z.set).ncard = 2 ∧
      IsWeak (1 / 2) commonSet (residualsOf Compose.smallCanvas.tiles commonSet inTurn) 1 1 ∧
      ∀ l, 0 ≤ l → l ≠ 1 → z.set.color? 1 l ≠ some ⟨120, 0, 40⟩ := by
  have hassigned : (List.ofFn fun b => (inTurn b).val) = [0, 1] := by decide +kernel
  have hrun : reseedColors (1 / 2) Compose.smallCanvas.tiles [0, 1] ⟨commonSet, ⟨0, 0⟩⟩ =
      ⟨⟨.shared, 4, [#v[⟨60, 90, 40⟩, ⟨0, 90, 40⟩, ⟨60, 0, 40⟩, ⟨60, 0, 40⟩],
        #v[⟨60, 90, 40⟩, ⟨120, 0, 40⟩, ⟨150, 0, 40⟩, ⟨150, 90, 40⟩]]⟩, ⟨2, 0⟩⟩ := by cbv
  obtain ⟨-, hcounted, hpalettes⟩ := reseedColors_weak_only Compose.smallCanvas ⟨commonSet, ⟨0, 0⟩⟩ (by decide) (1 / 2) inTurn
  obtain ⟨hchanges, -⟩ := hpalettes (1 : Fin 2)
  rw [hassigned, hrun] at hcounted hchanges
  rw [hrun]
  refine ⟨by decide, rfl, rfl, ?_, ?_⟩
  · have hcolors := congrArg Reseeds.colors hcounted
    rw [Nat.zero_add] at hcolors
    exact hcolors.symm
  · rcases hchanges 1 (by decide) with ⟨hshared, -⟩ | ⟨hweak, d, hd, -, hothers⟩
    · exact absurd hshared (by decide)
    · have hcolor : (⟨120, 0, 40⟩ : Rgb Rat) = Rgb.ofBytes d := Option.some.inj hd
      rw [← hcolor] at hothers
      exact ⟨hweak, hothers⟩

end Reseed

end Tessera
