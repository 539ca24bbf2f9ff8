import Mathlib
import Tessera.Mix
/-!
# Many points at once

The best mixes of several points are looked for together: one step is tried for all of them, and where none of them gains by
it nothing is written. What a point gains by a step depends on nothing but the point, so a round acts on every point for
itself (`Mix.round_eq_map`), and in the end every point has the mix that is found for it alone (`Mix.searchEach_eq_map`).
-/

namespace Tessera.Mix

theorem pairs_map {β γ : Type} (f : β → γ) (xs : List β) : pairs (xs.map f) = (pairs xs).map (Prod.map f f) := by
  induction xs with
  | nil => rfl
  | cons x xs ih => simp [pairs, ih, Function.comp_def]

variable {α : Type} [Scalar α] (rule : MixRule α)

/-! ## Rounds -/

/-- One step for one point. -/
def Row.advance (r : Row α) (step : (Nat × Nat) × Nat) : Row α := r.take (r.attempt rule step)

theorem Row.advance_of_not_gains {r : Row α} {step : (Nat × Nat) × Nat} (h : ¬ r.gains (r.attempt rule step) = true) :
    r.advance rule step = r := by
  rw [advance, take, if_neg h]

/-- A round takes every point one step on, also when it is left out because no point gains. -/
theorem round_eq_map (rows : List (Row α)) (step : (Nat × Nat) × Nat) :
    round rule rows step = rows.map fun r => r.advance rule step := by
  rw [round]
  split
  · rw [List.zipWith_map_right, List.zipWith_self]
    rfl
  · rename_i hnone
    have hzip : rows.zip (rows.map (Row.attempt rule step)) = rows.map fun r => (r, r.attempt rule step) := by
      simpa using List.zip_map' (f := id) (g := Row.attempt rule step) (l := rows)
    have hkept : ∀ r ∈ rows, r.advance rule step = r := by
      intro r hr
      apply Row.advance_of_not_gains
      intro hgains
      exact hnone (List.any_eq_true.2 ⟨(r, r.attempt rule step), hzip ▸ List.mem_map_of_mem hr, hgains⟩)
    exact ((List.map_congr_left hkept).trans (List.map_id' rows)).symm

theorem foldl_round (steps : List ((Nat × Nat) × Nat)) (rows : List (Row α)) :
    steps.foldl (round rule) rows = rows.map fun r => steps.foldl (Row.advance rule) r := by
  induction steps generalizing rows with
  | nil => simp
  | cons step steps ih => simp [ih, round_eq_map]

/-! ## One point -/

/-- The steps of a point keep the best of the mixes that they try. -/
theorem foldl_advance {point : Rgb α} {near : List (Rgb α × Nat)} {steps : List ((Nat × Nat) × Nat)} {tries : List (Mix α)}
    (h : steps.map (fun step => Row.attempt rule step ⟨point, near, none⟩) = tries.map some) (m : Mix α) :
    steps.foldl (Row.advance rule) ⟨point, near, some m⟩ = ⟨point, near, some (tries.foldl better m)⟩ := by
  induction steps generalizing tries m with
  | nil =>
    obtain rfl : tries = [] := by simpa using h.symm
    rfl
  | cons step steps ih =>
    cases tries with
    | nil => simp at h
    | cons n tries =>
      obtain ⟨hstep, hrest⟩ := List.cons_eq_cons.1 h
      have hadvance : Row.advance rule ⟨point, near, some m⟩ step = ⟨point, near, some (better m n)⟩ := by
        have hattempt : Row.attempt rule step ⟨point, near, some m⟩ = some n := hstep
        rw [Row.advance, hattempt, Row.take, better]
        by_cases hlt : n.cost < m.cost
        · simp [Row.gains, hlt]
        · simp [Row.gains, hlt]
      rw [List.foldl_cons, List.foldl_cons, hadvance, ih hrest]

/-- The steps of a point try the mixes of its nearest colours, pair by pair. -/
theorem map_attempt_steps (point : Rgb α) (near : List (Rgb α × Nat)) (count : Nat) (h : near.length = min candidates count) :
    (steps rule.levels count).map (fun step => Row.attempt rule step ⟨point, near, none⟩) =
      ((pairs near).flatMap fun p => trials rule point p.1 p.2).map some := by
  have hplaces : pairs (List.range (min candidates count)) =
      (pairs (List.finRange near.length)).map (Prod.map Fin.val Fin.val) := by
    rw [← pairs_map, List.map_coe_finRange_eq_range, h]
  have hnear : pairs near = (pairs (List.finRange near.length)).map (Prod.map near.get near.get) := by
    rw [← pairs_map, List.map_get_finRange]
  rw [steps, hplaces, hnear, List.flatMap_map, List.flatMap_map, List.map_flatMap, List.map_flatMap]
  refine List.flatMap_congr ?_
  intro p _
  rw [trials, List.map_map, List.map_map]
  refine List.map_congr_left ?_
  intro k _
  simp [Row.attempt]

theorem length_nearestColors (point : Rgb α) (colors : List (Rgb α)) :
    (nearestColors point colors).length = min candidates colors.length := by
  simp [nearestColors, List.length_mergeSort]

theorem best_foldl_advance (point : Rgb α) (colors : List (Rgb α)) :
    ((steps rule.levels colors.length).foldl (Row.advance rule) (Row.start colors point)).best = search rule point colors := by
  have hlength := length_nearestColors point colors
  rw [Row.start, search]
  cases hnear : nearestColors point colors with
  | nil =>
    -- without colours there is nothing to pair
    rw [hnear, List.length_nil] at hlength
    rw [steps, ← hlength]
    rfl
  | cons first rest =>
    rw [hnear] at hlength
    have htries := map_attempt_steps rule point ((first :: rest).map Prod.snd) colors.length (by simpa using hlength)
    exact congrArg Row.best (foldl_advance rule htries ⟨first.1, first.2.2, first.2.2, 0⟩)

/-- **Batches.** Searching for several points at once finds for each of them what searching for it alone finds. -/
theorem searchEach_eq_map (points colors : List (Rgb α)) :
    searchEach rule points colors = points.map fun point => search rule point colors := by
  rw [searchEach, foldl_round, List.map_map, List.map_map]
  refine List.map_congr_left ?_
  intro point _
  exact best_foldl_advance rule point colors

end Tessera.Mix
