import Mathlib
import Tessera.Proofs.Palettes
/-!
# What writing to a slot changes

The colours of a palette set are described slot by slot. A shared slot is one slot with a place in every palette, and the
place in the first palette stands for it (`PaletteSet.home`). Putting a colour into a slot that is not fixed changes the
slots with the same home, and no others (`PaletteSet.color?_setColor`).
-/

namespace Tessera

namespace PaletteSet

variable {α β : Type} (s : PaletteSet α)

theorem color?_eq_bind (p k : Nat) : s.color? p k = (s.palettes[p]?).bind fun v => v[k]? := by
  rw [color?]
  cases s.palettes[p]? <;> rfl

theorem color?_eq_none_iff {p k : Nat} : s.color? p k = none ↔ s.size ≤ p ∨ s.slots ≤ k := by
  rw [color?_eq_bind, size]
  by_cases hp : p < s.palettes.length
  · rw [List.getElem?_eq_getElem hp, Option.bind_some, Vector.getElem?_eq_none_iff]
    omega
  · simp only [List.getElem?_eq_none (Nat.le_of_not_lt hp), Option.bind_none, true_iff]
    omega

theorem exists_color? {p k : Nat} (hp : p < s.size) (hk : k < s.slots) : ∃ c, s.color? p k = some c := by
  rw [← Option.ne_none_iff_exists', ne_eq, color?_eq_none_iff]
  omega

theorem color?_map (f : Rgb α → Rgb β) (p k : Nat) : (s.map f).color? p k = (s.color? p k).map f := by
  have hpalette : (s.map f).palettes[p]? = (s.palettes[p]?).map fun v => v.map f := List.getElem?_map ..
  rw [color?_eq_bind, color?_eq_bind, hpalette]
  cases s.palettes[p]? with
  | none => rfl
  | some v => exact Vector.getElem?_map ..

theorem candidatesOf_map (f : Rgb α → Rgb β) (p : Nat) : (s.map f).candidatesOf p = (s.candidatesOf p).map f := by
  have hpalette : (s.map f).palettes[p]? = (s.palettes[p]?).map fun v => v.map f := List.getElem?_map ..
  rw [candidatesOf, candidatesOf, hpalette]
  cases s.palettes[p]? with
  | none => rfl
  | some v =>
    show (v.map f).toList.drop s.firstCandidate = (v.toList.drop s.firstCandidate).map f
    rw [Vector.toList_map, List.map_drop]

/-! ## Single writes -/

theorem modifySlot_getElem? {n : Nat} (v : Vector (Rgb α) n) (slot k : Nat) (f : Rgb α → Rgb α) :
    (modifySlot v slot f)[k]? = (v[k]?).map fun c => if k = slot then f c else c := by
  rw [modifySlot]
  split
  · rename_i hslot
    rw [Vector.getElem?_set]
    by_cases hk : slot = k
    · subst hk
      simp [hslot]
    · simp [hk, Ne.symm hk]
  · rename_i hslot
    by_cases hk : k < n
    · simp [hk, show k ≠ slot by omega]
    · simp [Vector.getElem?_eq_none (Nat.le_of_not_lt hk)]

theorem color?_modifyAt (p slot q k : Nat) (f : Rgb α → Rgb α) :
    (s.modifyAt p slot f).color? q k = (s.color? q k).map fun c => if q = p ∧ k = slot then f c else c := by
  rw [color?_eq_bind, color?_eq_bind]
  change ((s.palettes.modify p fun v => modifySlot v slot f)[q]?).bind (fun v => v[k]?) = _
  rw [List.getElem?_modify]
  cases s.palettes[q]? with
  | none => rfl
  | some v =>
    rw [Option.map_eq_map, Option.map_some, Option.bind_some, Option.bind_some]
    by_cases hq : p = q
    · subst hq
      simpa using modifySlot_getElem? v slot k f
    · simp [hq, Ne.symm hq]

theorem color?_fillSlot (slot q k : Nat) (c : Rgb α) :
    (s.fillSlot slot c).color? q k = (s.color? q k).map fun old => if k = slot then c else old := by
  have hpalette : (s.fillSlot slot c).palettes[q]? = (s.palettes[q]?).map fun v => modifySlot v slot fun _ => c :=
    List.getElem?_map ..
  rw [color?_eq_bind, color?_eq_bind, hpalette]
  cases s.palettes[q]? with
  | none => rfl
  | some v => exact modifySlot_getElem? v slot k fun _ => c

/-! ## Homes -/

/-- The place that stands for a slot: the first palette for a shared slot, the slot itself otherwise. -/
def home (p k : Nat) : Nat × Nat := if s.isShared k then (0, 0) else (p, k)

theorem home_home (p k : Nat) : s.home (s.home p k).1 (s.home p k).2 = s.home p k := by
  by_cases h : s.isShared k
  · have hzero : k = 0 := by simp only [isShared, Bool.and_eq_true, beq_iff_eq] at h; exact h.2
    subst hzero
    simp [home, h]
  · simp [home, h]

section

variable {s t : PaletteSet α}

theorem home_congr (h : t.zero = s.zero) (p k : Nat) : t.home p k = s.home p k := by
  rw [home, home, isShared, isShared, h]

theorem isFixed_congr (h : t.zero = s.zero) (k : Nat) : t.isFixed k = s.isFixed k := by simp only [isFixed, h]

theorem not_isFixed_of_le {k : Nat} (h : s.firstCandidate ≤ k) : ¬ s.isFixed k := by
  rw [isFixed, Bool.and_eq_true, beq_iff_eq]
  rintro ⟨hz, rfl⟩
  simp [firstCandidate, ColorZero.reservedSlots, hz] at h

end

/-- A slot is written where it is at home. -/
theorem color?_setColor (p slot : Nat) (c : Rgb α) {q k : Nat} (hk : ¬ s.isFixed k) :
    (s.setColor p slot c).color? q k =
      (s.color? q k).map fun old => if s.home q k = s.home p slot then c else old := by
  rw [setColor, changeColor]
  by_cases hfixed : s.isFixed slot
  · -- a fixed slot is not written, and the slot asked for is another one
    have hne : k ≠ slot := by rintro rfl; exact hk hfixed
    have hshared : s.zero ≠ .shared := by
      rintro hz
      simp [isFixed, hz, ColorZero.isTransparent] at hfixed
    rw [if_pos hfixed]
    simp [home, isShared, hshared, hne]
  rw [if_neg hfixed]
  by_cases hshared : s.isShared slot
  · rw [if_pos hshared]
    simp only [isShared, Bool.and_eq_true, beq_iff_eq] at hshared
    obtain ⟨hz, rfl⟩ := hshared
    have hhome : s.home q k = s.home p 0 ↔ k = 0 := by
      by_cases hzero : k = 0
      · subst hzero
        simp [home, isShared, hz]
      · simp [home, isShared, hz, hzero]
    simp only [hhome]
    cases hfirst : s.color? 0 0 with
    | some _ => exact s.color?_fillSlot 0 q k c
    | none =>
      dsimp only
      rw [color?_eq_none_iff] at hfirst
      by_cases hzero : k = 0
      · subst hzero
        rw [s.color?_eq_none_iff.2 (by omega : s.size ≤ q ∨ s.slots ≤ 0)]
        rfl
      · simp [hzero]
  · rw [if_neg hshared, color?_modifyAt]
    have hhome : s.home q k = s.home p slot ↔ q = p ∧ k = slot := by
      rw [home, home, if_neg hshared]
      by_cases hsk : s.isShared k
      · have hne : k ≠ slot := by rintro rfl; exact hshared hsk
        simp only [isShared, Bool.and_eq_true, beq_iff_eq] at hsk
        simp only [isShared, hsk, beq_self_eq_true, Bool.and_self, if_true, Prod.mk.injEq]
        omega
      · rw [if_neg hsk, Prod.mk.injEq]
    simp only [hhome]

end PaletteSet

/-! ## Reduced colours -/

namespace Depth

variable {α : Type} [Scalar α] (bits : Nat) (s : PaletteSet α)

theorem color?_reduce (p k : Nat) :
    (reduce bits s).color? p k = (s.color? p k).map fun c =>
      if k < s.zero.reservedSlots then c else c.map (Level.snapTo (Level.step bits)) := by
  have hpalette : (reduce bits s).palettes[p]? =
      (s.palettes[p]?).map (snapFrom (Level.step bits) s.zero.reservedSlots) := List.getElem?_map ..
  rw [PaletteSet.color?_eq_bind, PaletteSet.color?_eq_bind, hpalette]
  cases s.palettes[p]? with
  | none => rfl
  | some v => exact Vector.getElem?_mapIdx ..

end Depth

end Tessera
