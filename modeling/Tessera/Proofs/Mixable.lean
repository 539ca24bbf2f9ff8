import Mathlib
import Tessera.Proofs.Search
/-!
# Colours that can be mixed exactly

Between two colours lie their mixes, one for every level. At a point of this line a mix costs its squared distance along
the line, and a penalty that is greatest in the middle (`Mix.price_blend`). The penalty is too small to move the choice: one
level away is already farther than the penalty can save while its scale, times the number of levels less one, is below one
(`Mix.lineCost_lt`). So a point at a level is shown with the mix that is this very point, and four levels are still few
enough.
-/

namespace Tessera

namespace Mix

/-! ## Prices along a line -/

/-- The price of the mix at one share of a line for the point at another share, by the scale of the penalty, when the line
is one long. -/
def lineCost (scale point share : Rat) : Rat := (share - point) ^ 2 + scale * share * (1 - share)

theorem price_blend (rule : MixRule Rat) (a b : Rgb Rat) (point : Rat) (k : Nat) :
    price rule (blend point a b) a b k =
      lineCost (1 / 4 * (1 - rule.weight)) point (k / rule.levels) * a.sqDist b := by
  simp only [price, lineCost, blend, Rgb.zipWith, Rgb.sub, Rgb.sqDist]
  ring

/-- At a level the mix of this level is the cheapest. -/
theorem lineCost_lt {scale : Rat} (hscale : 0 ≤ scale) {n m k : Nat} (hsmall : scale * (n - 1) < 1) (hm : m ≤ n) (hk : k ≤ n)
    (hne : k ≠ m) : lineCost scale (m / n) (m / n) < lineCost scale (m / n) (k / n) := by
  have hn : (0 : Rat) < n := by exact_mod_cast (by omega : 0 < n)
  -- the two levels are at least one apart, and their sum is at least one away from both ends of its range
  have hapart : 1 ≤ |(m : Rat) - k| := by
    have hint : 1 ≤ |(m : ℤ) - k| := Int.one_le_abs (by omega)
    exact_mod_cast hint
  have hsum : |(n : Rat) - m - k| ≤ n - 1 := by
    have hint : |(n : ℤ) - m - k| ≤ n - 1 := abs_le.2 ⟨by omega, by omega⟩
    exact_mod_cast hint
  have hsaved : scale * ((m - k) * (n - m - k)) < ((m : Rat) - k) ^ 2 := by
    calc scale * ((m - k) * (n - m - k)) ≤ scale * (|(m : Rat) - k| * |(n : Rat) - m - k|) := by
          rw [← abs_mul]
          exact mul_le_mul_of_nonneg_left (le_abs_self _) hscale
      _ ≤ scale * (|(m : Rat) - k| * (n - 1)) := by gcongr
      _ = |(m : Rat) - k| * (scale * (n - 1)) := by ring
      _ < |(m : Rat) - k| * 1 := mul_lt_mul_of_pos_left hsmall (by linarith)
      _ ≤ |(m : Rat) - k| * |(m : Rat) - k| := by gcongr
      _ = ((m : Rat) - k) ^ 2 := by rw [abs_mul_abs_self, sq]
  have hgain : lineCost scale (m / n) (k / n) - lineCost scale (m / n) (m / n) =
      (((m : Rat) - k) ^ 2 - scale * ((m - k) * (n - m - k))) / n ^ 2 := by
    simp only [lineCost]
    field_simp
    ring
  have hpos : 0 < (((m : Rat) - k) ^ 2 - scale * ((m - k) * (n - m - k))) / (n : Rat) ^ 2 :=
    div_pos (by linarith) (by positivity)
  linarith

/-! ## Mixes of two colours -/

section

variable (rule : MixRule Rat) (x : Rgb Rat) {a b : Rgb Rat}

/-- At the last level the second colour stands alone. -/
theorem price_last (hlevels : 0 < rule.levels) : price rule x a b rule.levels = x.sqDist b := by
  simpa using price_swap rule x b a hlevels

/-- A mix of two colours of a line is the mix of its ends at some level. -/
theorem exists_level (hlevels : 0 < rule.levels) {c d : Rgb Rat} (hc : c = a ∨ c = b) (hd : d = a ∨ d = b) {k : Nat}
    (hk : k < rule.levels) :
    ∃ l ≤ rule.levels, blend ((k : Rat) / rule.levels) c d = blend ((l : Rat) / rule.levels) a b ∧
      price rule x c d k = price rule x a b l := by
  have hne : (rule.levels : Rat) ≠ 0 := by exact_mod_cast hlevels.ne'
  rcases hc with rfl | rfl
  · rcases hd with rfl | rfl
    · exact ⟨0, by omega, by simp [blend, Rgb.zipWith, Rgb.sub], by simp⟩
    · exact ⟨k, hk.le, rfl, rfl⟩
  · rcases hd with rfl | rfl
    · refine ⟨rule.levels - k, by omega, ?_, (price_swap rule x _ _ hk).symm⟩
      rw [Nat.cast_sub hk.le, sub_div, div_self hne]
      simp only [blend, Rgb.zipWith, Rgb.sub, Rgb.mk.injEq]
      refine ⟨?_, ?_, ?_⟩ <;> ring
    · refine ⟨rule.levels, le_rfl, ?_, ?_⟩
      · simp [blend, Rgb.zipWith, Rgb.sub, div_self hne]
      · rw [price_self, price_last rule x hlevels]

end

/-! ## The search on a line -/

/-- The scale of the penalty is small enough for few levels. -/
theorem scale_small {weight : Rat} (hpos : 0 < weight) (hone : weight ≤ 1) {n : Nat} (hn : n ≤ 4) :
    0 ≤ 1 / 4 * (1 - weight) ∧ 1 / 4 * (1 - weight) * ((n : Rat) - 1) < 1 := by
  have hlevels : (n : Rat) ≤ 4 := by exact_mod_cast hn
  have hscale : 0 ≤ 1 / 4 * (1 - weight) := by linarith
  refine ⟨hscale, ?_⟩
  calc 1 / 4 * (1 - weight) * ((n : Rat) - 1) ≤ 1 / 4 * (1 - weight) * 3 := by gcongr; linarith
    _ < 1 := by linarith

/-- Where the colours are the two ends of a line, the search at a level of the line finds the mix that is the point, and
every other mix has a greater price. -/
theorem search_line (rule : MixRule Rat) {a b : Rgb Rat} (hab : a ≠ b) (hpos : 0 < rule.weight) (hone : rule.weight ≤ 1)
    (hlevels : 0 < rule.levels) (hfour : rule.levels ≤ 4) {m : Nat} (hm : m ≤ rule.levels) {colors : List (Rgb Rat)}
    (hfew : colors.length ≤ candidates) (hcolors : ∀ c, c ∈ colors ↔ c = a ∨ c = b) :
    ∃ (i j : Fin colors.length) (k : Nat),
      search rule (blend ((m : Rat) / rule.levels) a b) colors =
        some (ofSlots rule (blend ((m : Rat) / rule.levels) a b) colors i j k) ∧
      blend ((k : Rat) / rule.levels) (colors.get i) (colors.get j) = blend ((m : Rat) / rule.levels) a b ∧
      ∀ l ≤ rule.levels, l ≠ m →
        price rule (blend ((m : Rat) / rule.levels) a b) (colors.get i) (colors.get j) k <
          price rule (blend ((m : Rat) / rule.levels) a b) a b l := by
  generalize hx : blend ((m : Rat) / rule.levels) a b = x
  have hne : colors ≠ [] := List.ne_nil_of_mem ((hcolors a).2 (Or.inl rfl))
  obtain ⟨n, i, j, k, hsearch, -, -, -, hk, hleast, -⟩ := search_spec rule x hlevels hne
  rw [nearSlots_eq_univ hfew] at hleast
  -- the found mix is a mix of the ends, and the mix at the level of the point is among those that it is compared with
  obtain ⟨l, hl, hblend, hprice⟩ := exists_level rule x hlevels ((hcolors _).1 (List.getElem_mem i.isLt))
    ((hcolors _).1 (List.getElem_mem j.isLt)) hk
  have hother : ∀ l ≤ rule.levels, l ≠ m → price rule x a b m < price rule x a b l := by
    intro l hl hlm
    obtain ⟨hscale, hsmall⟩ := scale_small hpos hone hfour
    rw [← hx, price_blend, price_blend]
    exact mul_lt_mul_of_pos_right (lineCost_lt hscale hsmall hm hl hlm) (Rgb.sqDist_pos hab)
  have hown : price rule x (colors.get i) (colors.get j) k ≤ price rule x a b m := by
    obtain ⟨s, hs, ha⟩ := List.getElem_of_mem ((hcolors a).2 (Or.inl rfl))
    obtain ⟨t, ht, hb⟩ := List.getElem_of_mem ((hcolors b).2 (Or.inr rfl))
    rcases hm.lt_or_eq with hlt | heq
    · simpa [ha, hb] using hleast ⟨s, hs⟩ (Finset.mem_univ _) ⟨t, ht⟩ (Finset.mem_univ _) m hlt
    · rw [heq, price_last rule x hlevels]
      simpa [hb] using hleast ⟨t, ht⟩ (Finset.mem_univ _) ⟨t, ht⟩ (Finset.mem_univ _) 0 hlevels
  have hlevel : l = m := by
    by_contra hlm
    exact absurd (hprice ▸ hown) (not_le.2 (hother l hl hlm))
  refine ⟨i, j, k, hsearch, ?_, ?_⟩
  · rw [← hx, ← hlevel]
    exact hblend
  · intro l hl hlm
    exact hown.trans_lt (hother l hl hlm)

/-- **Mixes are exact.** At a mix of two colours in two or four levels the search, with these two colours in either order,
finds a mix that is this very point, whatever the weight. A quarter of four levels costs less than the nearest colour alone,
and less than half of the way. -/
theorem search_mixable (a b : Rgb Rat) (hab : a ≠ b) (weight : Rat) (hpos : 0 < weight) (hone : weight ≤ 1) (n : Nat)
    (hn : n = 2 ∨ n = 4) (m : Nat) (hm : m ≤ n) (colors : List (Rgb Rat)) (hcolors : colors = [a, b] ∨ colors = [b, a]) :
    ∃ (found : Mix Rat) (c d : Rgb Rat), search ⟨n, weight⟩ (blend ((m : Rat) / n) a b) colors = some found ∧
      colors[found.first]? = some c ∧ colors[found.second]? = some d ∧
      blend ((found.level : Rat) / n) c d = blend ((m : Rat) / n) a b ∧
      (n = 4 → m = 1 ∨ m = 3 →
        (∀ e ∈ colors, found.cost < (blend ((m : Rat) / n) a b).sqDist e) ∧
          found.cost < price ⟨n, weight⟩ (blend ((m : Rat) / n) a b) a b 2) := by
  have hfew : colors.length ≤ candidates := by
    rcases hcolors with rfl | rfl <;> simp [candidates]
  have hends : ∀ c, c ∈ colors ↔ c = a ∨ c = b := by
    intro c
    rcases hcolors with rfl | rfl
    · simp
    · simp [or_comm]
  have hlevels : 0 < n := by omega
  obtain ⟨i, j, k, hsearch, hblend, hother⟩ :=
    search_line ⟨n, weight⟩ hab hpos hone hlevels (show n ≤ 4 by omega) hm hfew hends
  refine ⟨_, _, _, hsearch, List.getElem?_eq_getElem i.isLt, List.getElem?_eq_getElem j.isLt, hblend, ?_⟩
  rintro rfl hquarter
  refine ⟨?_, hother 2 (by simp) (by omega)⟩
  intro e he
  rcases (hends e).1 he with rfl | rfl
  · simpa [ofSlots] using hother 0 (by simp) (by omega)
  · have hlast := hother 4 le_rfl (by omega)
    rwa [price_last ⟨4, weight⟩ _ hlevels] at hlast

/-- With next to no weight a quarter of the way from black is mixed of one quarter of the other colour. -/
theorem search_mixable_quarter :
    (⟨0, 0, 0⟩ : Rgb Rat) ≠ ⟨80, 40, 20⟩ ∧ (0 : Rat) < 1 / 100 ∧ (1 / 100 : Rat) ≤ 1 ∧
      search (⟨4, 1 / 100⟩ : MixRule Rat) ⟨20, 10, 5⟩ [⟨80, 40, 20⟩, ⟨0, 0, 0⟩] = some ⟨6237 / 16, 1, 0, 1⟩ ∧
      blend ((1 : Rat) / 4) ⟨0, 0, 0⟩ ⟨80, 40, 20⟩ = ⟨20, 10, 5⟩ ∧
      (∀ e ∈ [(⟨80, 40, 20⟩ : Rgb Rat), ⟨0, 0, 0⟩], (6237 / 16 : Rat) < (⟨20, 10, 5⟩ : Rgb Rat).sqDist e) ∧
      (6237 / 16 : Rat) < price ⟨4, 1 / 100⟩ ⟨20, 10, 5⟩ ⟨0, 0, 0⟩ ⟨80, 40, 20⟩ 2 := by
  have hab : (⟨0, 0, 0⟩ : Rgb Rat) ≠ ⟨80, 40, 20⟩ := by simp
  have hpoint : blend (((1 : Nat) : Rat) / (4 : Nat)) ⟨0, 0, 0⟩ ⟨80, 40, 20⟩ = ⟨20, 10, 5⟩ := by cbv
  obtain ⟨found, c, d, hsearch, -, -, -, hquarter⟩ := search_mixable ⟨0, 0, 0⟩ ⟨80, 40, 20⟩ hab (1 / 100) (by norm_num)
    (by norm_num) 4 (Or.inr rfl) 1 (by norm_num) [⟨80, 40, 20⟩, ⟨0, 0, 0⟩] (Or.inr rfl)
  have hfound : search (⟨4, 1 / 100⟩ : MixRule Rat) ⟨20, 10, 5⟩ [⟨80, 40, 20⟩, ⟨0, 0, 0⟩] = some ⟨6237 / 16, 1, 0, 1⟩ := by cbv
  rw [hpoint] at hsearch hquarter
  rw [hfound] at hsearch
  obtain rfl := Option.some.inj hsearch
  obtain ⟨hends, hhalf⟩ := hquarter rfl (Or.inl rfl)
  exact ⟨hab, by norm_num, by norm_num, hfound, by simpa using hpoint, hends, hhalf⟩

end Mix

end Tessera
