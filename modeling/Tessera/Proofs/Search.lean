import Mathlib
import Tessera.Proofs.Nearness
/-!
# What the search for a mix finds

The search starts with the nearest colour alone and tries the mixes of two of the four nearest slots, every pair in the
order of nearness only. A mix is the mix of its colours the other way round at the level that is left, so no mix of these
slots is missed, and what is found has the least price of all (`Mix.search_spec`). A mix takes the place of the nearest
colour only when it is cheaper.
-/

namespace Tessera.Mix

open Fit (Nearer IsNearest slotOrder)

/-! ## Slots that are paired -/

/-- The slots that are paired for a point: those with fewer than four slots before them. -/
def nearSlots (x : Rgb Rat) (colors : List (Rgb Rat)) : Finset (Fin colors.length) :=
  Finset.univ.filter fun i => (Finset.univ.filter fun j => Nearer x colors j i).card < candidates

section

variable {x : Rgb Rat} {colors : List (Rgb Rat)} {i j : Fin colors.length}

theorem mem_nearSlots : i ∈ nearSlots x colors ↔ i ∈ (slotOrder x colors).take candidates := by
  rw [Fit.mem_take_slotOrder, nearSlots, Finset.mem_filter]
  simp

theorem card_nearSlots : (nearSlots x colors).card = min candidates colors.length := by
  have hslots : nearSlots x colors = ((slotOrder x colors).take candidates).toFinset := by
    ext i
    rw [mem_nearSlots, List.mem_toFinset]
  rw [hslots, List.toFinset_card_of_nodup (Fit.nodup_slotOrder.sublist (List.take_sublist _ _)), List.length_take,
    Fit.length_slotOrder]

/-- Every slot that is paired comes before every slot that is not. -/
theorem nearer_of_not_mem (hi : i ∈ nearSlots x colors) (hj : j ∉ nearSlots x colors) : Nearer x colors i j := by
  have hsorted : (slotOrder x colors).Pairwise (Nearer x colors) := Fit.pairwise_slotOrder
  have hmem : j ∈ slotOrder x colors := Fit.mem_slotOrder j
  rw [mem_nearSlots] at hi hj
  rw [← List.take_append_drop candidates (slotOrder x colors)] at hsorted hmem
  exact (List.pairwise_append.1 hsorted).2.2 i hi j ((List.mem_append.1 hmem).resolve_left hj)

theorem nearSlots_eq_univ (h : colors.length ≤ candidates) : nearSlots x colors = Finset.univ := by
  rw [← Finset.card_eq_iff_eq_univ, card_nearSlots, Fintype.card_fin]
  exact min_eq_right h

end

/-! ## Prices -/

/-- The price of a mix: how far the mixed colour is from the point, and what the contrast of its colours costs. -/
def price (rule : MixRule Rat) (x c d : Rgb Rat) (k : Nat) : Rat :=
  let t : Rat := k / rule.levels
  x.sqDist (blend t c d) + 1 / 4 * (1 - rule.weight) * t * (1 - t) * c.sqDist d

section

variable (rule : MixRule Rat) (x c d : Rgb Rat)

theorem trial_eq_price (k : Nat) : trial rule x c d k = price rule x c d k := by
  rw [trial_eq, price, Rgb.sqDist_comm d c]

@[simp] theorem price_zero : price rule x c d 0 = x.sqDist c := by
  rw [← trial_eq_price, trial_zero]

@[simp] theorem price_self (k : Nat) : price rule x c c k = x.sqDist c := by
  rw [← trial_eq_price, trial_self]

theorem price_swap {k : Nat} (hk : k < rule.levels) : price rule x d c (rule.levels - k) = price rule x c d k := by
  rw [← trial_eq_price, ← trial_eq_price, trial_swap rule x c d hk]

end

/-! ## The mixes that are tried -/

/-- The first of a pair stands before the second. -/
theorem rel_of_mem_pairs {β : Type} {R : β → β → Prop} {xs : List β} (h : xs.Pairwise R) {p : β × β} (hp : p ∈ pairs xs) :
    R p.1 p.2 := by
  induction xs with
  | nil => cases hp
  | cons x xs ih =>
    obtain ⟨hfirst, hrest⟩ := List.pairwise_cons.1 h
    rcases List.mem_append.1 hp with hp | hp
    · obtain ⟨y, hy, rfl⟩ := List.mem_map.1 hp
      exact hfirst y hy
    · exact ih hrest hp

section

variable (rule : MixRule Rat) (x : Rgb Rat) (colors : List (Rgb Rat))

/-- The mix of two slots at a level. -/
def ofSlots (i j : Fin colors.length) (k : Nat) : Mix Rat := ⟨price rule x (colors.get i) (colors.get j) k, i, j, k⟩

/-- The mixes that are tried with slots given nearest first. -/
def slotTries (near : List (Fin colors.length)) : List (Mix Rat) :=
  (pairs near).flatMap fun p => (List.range' 1 (rule.levels - 1)).map (ofSlots rule x colors p.1 p.2)

variable {colors}

theorem mem_slotTries {near : List (Fin colors.length)} {m : Mix Rat} :
    m ∈ slotTries rule x colors near ↔
      ∃ p ∈ pairs near, ∃ k, 0 < k ∧ k < rule.levels ∧ m = ofSlots rule x colors p.1 p.2 k := by
  simp only [slotTries, List.mem_flatMap, List.mem_map, List.mem_range'_1]
  constructor
  · rintro ⟨p, hp, k, hk, rfl⟩
    exact ⟨p, hp, k, by omega, by omega, rfl⟩
  · rintro ⟨p, hp, k, hpos, hlt, rfl⟩
    exact ⟨p, hp, k, by omega, rfl⟩

/-- A slot with its colour and the distance of that. -/
def rankedSlot (i : Fin colors.length) : Rat × Rgb Rat × Nat := (x.sqDist (colors.get i), colors.get i, i.val)

theorem tries_rankedSlot (near : List (Fin colors.length)) :
    tries rule x (near.map (rankedSlot x)) = slotTries rule x colors near := by
  have htrials : ∀ p : Fin colors.length × Fin colors.length,
      trials rule x (rankedSlot x p.1).2 (rankedSlot x p.2).2 =
        (List.range' 1 (rule.levels - 1)).map (ofSlots rule x colors p.1 p.2) := by
    intro p
    simp only [trials, trial_eq_price]
    rfl
  simp only [tries, slotTries, List.map_map, pairs_map, List.flatMap_map, Prod.map_fst, Prod.map_snd, Function.comp_apply,
    htrials]

/-- The search goes through the slots in order of nearness. -/
theorem search_eq_foldl {n : Fin colors.length} {rest : List (Fin colors.length)}
    (h : (slotOrder x colors).take candidates = n :: rest) :
    search rule x colors =
      some ((slotTries rule x colors (n :: rest)).foldl better (ofSlots rule x colors n n 0)) := by
  have hnear : nearestColors x colors = (n :: rest).map (rankedSlot x) := by
    rw [nearestColors, Fit.mergeSort_zipIdx (fun c => (x.sqDist c.1, c)) Prod.fst fun _ => rfl, ← List.map_take, h]
    rfl
  have hsearch : search rule x colors =
      some ((tries rule x ((n :: rest).map (rankedSlot x))).foldl better ⟨x.sqDist (colors.get n), n, n, 0⟩) := by
    rw [search, hnear]
    rfl
  rw [hsearch, tries_rankedSlot, ofSlots, price_zero]

/-! ## The best mix -/

/-- The slots that are paired have a first one, which is the nearest. -/
theorem exists_take_slotOrder (h : colors ≠ []) :
    ∃ n rest, (slotOrder x colors).take candidates = n :: rest ∧ IsNearest x colors n := by
  have hpos : 0 < colors.length := List.length_pos_iff.2 h
  have hne : slotOrder x colors ≠ [] := by
    rw [← List.length_pos_iff, Fit.length_slotOrder]
    exact hpos
  obtain ⟨n, more, horder⟩ := List.exists_cons_of_ne_nil hne
  refine ⟨n, more.take 3, ?_, Fit.isNearest_of_slotOrder horder⟩
  rw [horder]
  rfl

/-- No price of two slots that are paired is below the mix that is kept. Either the pair is tried as it is, or the other way
round at the level that is left. -/
theorem foldl_slotTries_le {n : Fin colors.length} {rest : List (Fin colors.length)}
    (h : (slotOrder x colors).take candidates = n :: rest) (hn : IsNearest x colors n) (a : Fin colors.length)
    (ha : a ∈ nearSlots x colors) (b : Fin colors.length) (hb : b ∈ nearSlots x colors) (k : Nat) (hk : k < rule.levels) :
    ((slotTries rule x colors (n :: rest)).foldl better (ofSlots rule x colors n n 0)).cost ≤
      price rule x (colors.get a) (colors.get b) k := by
  obtain ⟨hstart, htried⟩ := foldl_better_le (ofSlots rule x colors n n 0) (slotTries rule x colors (n :: rest))
  have hnearest : ∀ i : Fin colors.length,
      ((slotTries rule x colors (n :: rest)).foldl better (ofSlots rule x colors n n 0)).cost ≤ x.sqDist (colors.get i) := by
    intro i
    refine hstart.trans ?_
    simpa [ofSlots] using (hn i).1
  rw [mem_nearSlots, h] at ha hb
  by_cases hzero : k = 0
  · rw [hzero, price_zero]
    exact hnearest a
  rcases mem_pairs_of_mem ha hb with rfl | hpair | hpair
  · rw [price_self]
    exact hnearest a
  · exact htried (ofSlots rule x colors a b k) ((mem_slotTries rule x).2 ⟨(a, b), hpair, k, by omega, hk, rfl⟩)
  · rw [← price_swap rule x _ _ hk]
    exact htried (ofSlots rule x colors b a (rule.levels - k))
      ((mem_slotTries rule x).2 ⟨(b, a), hpair, rule.levels - k, by omega, by omega, rfl⟩)

/-- **What the search finds**: a mix of two slots that are paired, with the least price of all such mixes. It is the nearest
slot alone, or two slots in order of nearness at a price below that of the nearest slot. -/
theorem search_spec (hlevels : 0 < rule.levels) (h : colors ≠ []) :
    ∃ (n i j : Fin colors.length) (k : Nat), search rule x colors = some (ofSlots rule x colors i j k) ∧ IsNearest x colors n ∧
      i ∈ nearSlots x colors ∧ j ∈ nearSlots x colors ∧ k < rule.levels ∧
      (∀ a ∈ nearSlots x colors, ∀ b ∈ nearSlots x colors, ∀ l < rule.levels,
        price rule x (colors.get i) (colors.get j) k ≤ price rule x (colors.get a) (colors.get b) l) ∧
      (i = n ∧ j = n ∧ k = 0 ∨
        0 < k ∧ Nearer x colors i j ∧ price rule x (colors.get i) (colors.get j) k < x.sqDist (colors.get n)) := by
  obtain ⟨n, rest, hnear, hn⟩ := exists_take_slotOrder x h
  have hsearch := search_eq_foldl rule x hnear
  have hleast := foldl_slotTries_le rule x hnear hn
  have hmem : n ∈ nearSlots x colors := by
    rw [mem_nearSlots, hnear]
    exact List.mem_cons_self
  rcases foldl_better_cases (ofSlots rule x colors n n 0) (slotTries rule x colors (n :: rest)) with hkept | ⟨htried, hless⟩
  · rw [hkept] at hsearch hleast
    exact ⟨n, n, n, 0, hsearch, hn, hmem, hmem, hlevels, hleast, Or.inl ⟨rfl, rfl, rfl⟩⟩
  · obtain ⟨p, hp, k, hpos, hlt, hmix⟩ := (mem_slotTries rule x).1 htried
    rw [hmix] at hsearch hleast hless
    have hsorted : (n :: rest).Pairwise (Nearer x colors) := by
      rw [← hnear]
      exact Fit.pairwise_slotOrder.sublist (List.take_sublist _ _)
    obtain ⟨hfirst, hsecond⟩ := mem_pairs hp
    rw [← hnear, ← mem_nearSlots] at hfirst hsecond
    refine ⟨n, p.1, p.2, k, hsearch, hn, hfirst, hsecond, hlt, hleast, Or.inr ⟨hpos, rel_of_mem_pairs hsorted hp, ?_⟩⟩
    simpa [ofSlots] using hless

end

/-- **The search is exact.** Let the four nearest slots be paired, or all slots when there are fewer, equally near ones by
their places. The cost that is found is the least price of all ordered pairs of these slots at all levels. The two slots
and the level that are found have this price. The level is zero exactly when no mix is cheaper than the nearest colour
alone, and then both slots are the lowest one that is nearest. Otherwise the slots differ, and the first is at least as near
as the second. Up to four colours the price is the least of all pairs of colours. -/
theorem search_exact (rule : MixRule Rat) (x : Rgb Rat) (colors : List (Rgb Rat)) (hlevels : 1 ≤ rule.levels)
    (hcolors : colors ≠ []) :
    (nearSlots x colors).card = min 4 colors.length ∧
      (∀ i ∈ nearSlots x colors, ∀ j ∉ nearSlots x colors, Nearer x colors i j) ∧
      ∃ (m : Mix Rat) (n i j : Fin colors.length), search rule x colors = some m ∧ IsNearest x colors n ∧
        m.first = i ∧ m.second = j ∧ i ∈ nearSlots x colors ∧ j ∈ nearSlots x colors ∧ m.level < rule.levels ∧
        m.cost = price rule x (colors.get i) (colors.get j) m.level ∧
        IsLeast {v | ∃ a ∈ nearSlots x colors, ∃ b ∈ nearSlots x colors, ∃ k < rule.levels,
          v = price rule x (colors.get a) (colors.get b) k} m.cost ∧
        (m.level = 0 ↔ ∀ a ∈ nearSlots x colors, ∀ b ∈ nearSlots x colors, ∀ k < rule.levels,
          ¬ price rule x (colors.get a) (colors.get b) k < x.sqDist (colors.get n)) ∧
        (m.level = 0 → i = n ∧ j = n) ∧
        (0 < m.level → i ≠ j ∧ x.sqDist (colors.get i) ≤ x.sqDist (colors.get j)) ∧
        (colors.length ≤ 4 → IsLeast {v | ∃ a b : Fin colors.length, ∃ k < rule.levels,
          v = price rule x (colors.get a) (colors.get b) k} m.cost) := by
  obtain ⟨n, i, j, k, hsearch, hn, hi, hj, hk, hleast, hkind⟩ := search_spec rule x hlevels hcolors
  refine ⟨card_nearSlots, fun a ha b hb => nearer_of_not_mem ha hb, ofSlots rule x colors i j k, n, i, j, hsearch, hn, rfl, rfl,
    hi, hj, hk, rfl, ⟨⟨i, hi, j, hj, k, hk, rfl⟩, ?_⟩, ?_, ?_, ?_, ?_⟩
  · rintro v ⟨a, ha, b, hb, l, hl, rfl⟩
    exact hleast a ha b hb l hl
  · simp only [ofSlots, not_lt]
    constructor
    · rintro rfl a ha b hb l hl
      rcases hkind with ⟨rfl, -, -⟩ | ⟨hpos, -⟩
      · simpa using hleast a ha b hb l hl
      · omega
    · intro hnone
      rcases hkind with ⟨-, -, hzero⟩ | ⟨-, -, hless⟩
      · exact hzero
      · exact absurd hless (not_lt.2 (hnone i hi j hj k hk))
  · intro hzero
    rcases hkind with ⟨hin, hjn, -⟩ | ⟨hpos, -⟩
    · exact ⟨hin, hjn⟩
    · exact absurd hzero hpos.ne'
  · intro hpos
    rcases hkind with ⟨-, -, hzero⟩ | ⟨-, hnearer, -⟩
    · exact absurd hzero hpos.ne'
    · refine ⟨?_, hnearer.le⟩
      rintro rfl
      exact hnearer.asymm hnearer
  · intro hfew
    have hall : ∀ a, a ∈ nearSlots x colors := by
      intro a
      rw [nearSlots_eq_univ hfew]
      exact Finset.mem_univ a
    refine ⟨⟨i, j, k, hk, rfl⟩, ?_⟩
    rintro v ⟨a, b, l, hl, rfl⟩
    exact hleast a (hall a) b (hall b) l hl

/-- Six reds: one is nearest to the middle, three are equally near, and two are not paired. -/
def reds : List (Rgb Rat) := [⟨40, 0, 0⟩, ⟨10, 0, 0⟩, ⟨10, 0, 0⟩, ⟨200, 0, 0⟩, ⟨30, 0, 0⟩, ⟨45, 0, 0⟩]

/-- A quarter of the lowest slot that is equally near is mixed into the nearest one. -/
theorem search_exact_reds :
    1 ≤ (⟨4, 1 / 2⟩ : MixRule Rat).levels ∧ reds ≠ [] ∧
      search ⟨4, 1 / 2⟩ ⟨25, 0, 0⟩ reds = some ⟨75 / 8, 4, 1, 1⟩ ∧ (nearSlots ⟨25, 0, 0⟩ reds).card = 4 ∧
      IsLeast {v | ∃ a ∈ nearSlots ⟨25, 0, 0⟩ reds, ∃ b ∈ nearSlots ⟨25, 0, 0⟩ reds, ∃ k < 4,
        v = price ⟨4, 1 / 2⟩ ⟨25, 0, 0⟩ (reds.get a) (reds.get b) k} (75 / 8) := by
  obtain ⟨hcard, -, m, n, i, j, hsearch, -, -, -, -, -, -, -, hleast, -⟩ :=
    search_exact ⟨4, 1 / 2⟩ ⟨25, 0, 0⟩ reds (by decide) (by simp [reds])
  have hfound : search (⟨4, 1 / 2⟩ : MixRule Rat) ⟨25, 0, 0⟩ reds = some ⟨75 / 8, 4, 1, 1⟩ := by cbv
  rw [hfound] at hsearch
  obtain rfl := Option.some.inj hsearch
  exact ⟨by decide, by simp [reds], hfound, hcard, hleast⟩

end Tessera.Mix
