import Mathlib
import Tessera.Proofs.Extension
/-!
# What the best mix costs

The cost of a colour by a mix rule is the least cost of a mix of two of the colours that are paired, and these are the
four nearest ones (`Mix.cost_isLeast`). Up to four candidates all are paired, so further candidates do not raise the cost
(`Fit.cost_some_anti`), and copies of a candidate do not change it. Beyond four a new candidate can push a partner out of
the nearest ones.
-/

namespace Tessera

/-! ## The least of the trials -/

namespace Mix

theorem foldl_better_le (m : Mix Rat) (ms : List (Mix Rat)) :
    (ms.foldl better m).cost ≤ m.cost ∧ ∀ n ∈ ms, (ms.foldl better m).cost ≤ n.cost := by
  induction ms generalizing m with
  | nil => exact ⟨le_rfl, by simp⟩
  | cons n ms ih =>
    obtain ⟨hbetter, hrest⟩ := ih (better m n)
    have hle : (better m n).cost ≤ m.cost ∧ (better m n).cost ≤ n.cost := by
      rw [better]
      split
      · rename_i hlt
        exact ⟨hlt.le, le_rfl⟩
      · rename_i hge
        exact ⟨le_rfl, not_lt.1 hge⟩
    rw [List.foldl_cons]
    refine ⟨hbetter.trans hle.1, fun k hk => ?_⟩
    rcases List.mem_cons.1 hk with rfl | hk
    · exact hbetter.trans hle.2
    · exact hrest k hk

/-- A mix that is kept is the one to begin with, or a cheaper one. -/
theorem foldl_better_cases (m : Mix Rat) (ms : List (Mix Rat)) :
    ms.foldl better m = m ∨ ms.foldl better m ∈ ms ∧ (ms.foldl better m).cost < m.cost := by
  induction ms generalizing m with
  | nil => exact Or.inl rfl
  | cons n ms ih =>
    rw [List.foldl_cons]
    by_cases hlt : n.cost < m.cost
    · rw [better, if_pos hlt]
      rcases ih n with heq | ⟨hmem, hless⟩
      · rw [heq]
        exact Or.inr ⟨List.mem_cons_self, hlt⟩
      · exact Or.inr ⟨List.mem_cons_of_mem n hmem, hless.trans hlt⟩
    · rw [better, if_neg hlt]
      rcases ih m with heq | ⟨hmem, hless⟩
      · exact Or.inl heq
      · exact Or.inr ⟨List.mem_cons_of_mem n hmem, hless⟩

variable (rule : MixRule Rat) (x c d : Rgb Rat)

/-! ## Trials -/

theorem trial_eq (k : Nat) :
    trial rule x c d k = x.sqDist (blend (k / rule.levels) c d) +
      1 / 4 * (1 - rule.weight) * (k / rule.levels) * (1 - k / rule.levels) * d.sqDist c := rfl

@[simp] theorem trial_zero : trial rule x c d 0 = x.sqDist c := by
  simp [trial_eq, blend, Rgb.zipWith]

@[simp] theorem trial_self (k : Nat) : trial rule x c c k = x.sqDist c := by
  simp [trial_eq, blend, Rgb.zipWith, Rgb.sub, Rgb.sqDist]

/-- A mix is the mix of its colours the other way round at the level that is left. -/
theorem trial_swap {k : Nat} (hk : k < rule.levels) : trial rule x d c (rule.levels - k) = trial rule x c d k := by
  have hlevels : (rule.levels : Rat) ≠ 0 := by exact_mod_cast (by omega : rule.levels ≠ 0)
  have hshare : ((rule.levels - k : Nat) : Rat) / rule.levels = 1 - k / rule.levels := by
    rw [Nat.cast_sub hk.le, sub_div, div_self hlevels]
  rw [trial_eq, trial_eq, hshare]
  simp only [blend, Rgb.zipWith, Rgb.sub, Rgb.sqDist]
  ring

/-! ## Colours that are paired -/

theorem mem_pairs_of_mem {β : Type} {xs : List β} {a b : β} (ha : a ∈ xs) (hb : b ∈ xs) :
    a = b ∨ (a, b) ∈ pairs xs ∨ (b, a) ∈ pairs xs := by
  induction xs with
  | nil => cases ha
  | cons y xs ih =>
    have hfirst : ∀ z ∈ xs, (y, z) ∈ pairs (y :: xs) := fun z hz => List.mem_append_left _ (List.mem_map.2 ⟨z, hz, rfl⟩)
    rcases List.mem_cons.1 ha with rfl | ha'
    · rcases List.mem_cons.1 hb with rfl | hb'
      · exact .inl rfl
      · exact .inr (.inl (hfirst b hb'))
    · rcases List.mem_cons.1 hb with rfl | hb'
      · exact .inr (.inr (hfirst a ha'))
      · exact (ih ha' hb').imp_right (Or.imp (List.mem_append_right _) (List.mem_append_right _))

/-- The colours that are paired for a point. -/
def paired (x : Rgb Rat) (colors : List (Rgb Rat)) : List (Rgb Rat) := (nearestColors x colors).map fun a => a.2.1

variable {x} {colors : List (Rgb Rat)}

/-- The colours with their distances and positions, nearest first. -/
def ranked (x : Rgb Rat) (colors : List (Rgb Rat)) : List (Rat × Rgb Rat × Nat) :=
  (colors.zipIdx.map fun c => (x.sqDist c.1, c)).mergeSort fun a b => Pick.ascends a.1 b.1

theorem pairwise_ranked : (ranked x colors).Pairwise fun a b => a.1 ≤ b.1 := Pick.pairwise_mergeSort_ascends Prod.fst _

theorem mem_ranked {a : Rat × Rgb Rat × Nat} : a ∈ ranked x colors ↔ a.1 = x.sqDist a.2.1 ∧ colors[a.2.2]? = some a.2.1 := by
  rw [ranked, List.mem_mergeSort, List.mem_map]
  constructor
  · rintro ⟨b, hb, rfl⟩
    exact ⟨rfl, List.mem_zipIdx_iff_getElem?.1 hb⟩
  · rintro ⟨hvalue, hcolor⟩
    exact ⟨a.2, List.mem_zipIdx_iff_getElem?.2 hcolor, Prod.ext hvalue.symm rfl⟩

theorem countP_ranked (p : Rat → Bool) : (ranked x colors).countP (fun a => p a.1) = colors.countP fun c => p (x.sqDist c) := by
  rw [ranked, (List.mergeSort_perm _ _).countP_eq, List.countP_map]
  conv_rhs => rw [← List.zipIdx_map_fst 0 colors, List.countP_map]
  rfl

theorem paired_subset : paired x colors ⊆ colors := by
  intro c hc
  obtain ⟨a, ha, rfl⟩ := List.mem_map.1 hc
  exact List.mem_of_getElem? (mem_ranked.1 (List.mem_of_mem_take ha)).2

theorem sqDist_lt_of_mem_paired {v : Rat} (h : candidates ≤ colors.countP fun c => x.sqDist c < v) :
    ∀ c ∈ paired x colors, x.sqDist c < v := by
  intro c hc
  obtain ⟨a, ha, rfl⟩ := List.mem_map.1 hc
  rw [← (mem_ranked.1 (List.mem_of_mem_take ha)).1]
  exact Pick.lt_of_mem_take pairwise_ranked (by rwa [countP_ranked fun y => decide (y < v)]) a ha

theorem mem_paired_of_sqDist_le {v : Rat} (h : (colors.countP fun c => x.sqDist c ≤ v) ≤ candidates) :
    ∀ c ∈ colors, x.sqDist c ≤ v → c ∈ paired x colors := by
  intro c hc hle
  obtain ⟨k, hk⟩ := List.mem_iff_getElem?.1 hc
  have hmem : (x.sqDist c, c, k) ∈ ranked x colors := mem_ranked.2 ⟨rfl, hk⟩
  exact List.mem_map_of_mem
    (Pick.mem_take_of_le pairwise_ranked (by rwa [countP_ranked fun y => decide (y ≤ v)]) _ hmem hle)

/-- Of few colours all are paired. -/
theorem mem_paired_iff (h : colors.length ≤ candidates) {c : Rgb Rat} : c ∈ paired x colors ↔ c ∈ colors :=
  ⟨fun hc => paired_subset hc,
    fun hc => mem_paired_of_sqDist_le (List.countP_le_length.trans h) c hc le_rfl⟩

/-! ## Costs of mixes -/

/-- The costs of the mixes of two of some colours. -/
def mixCosts (x : Rgb Rat) (colors : List (Rgb Rat)) : Set Rat :=
  {v | ∃ c ∈ colors, ∃ d ∈ colors, ∃ k, (k = 0 ∨ k < rule.levels) ∧ v = trial rule x c d k}

/-- The mixes that are tried with colours given nearest first. -/
def tries (x : Rgb Rat) (near : List (Rat × Rgb Rat × Nat)) : List (Mix Rat) :=
  (pairs (near.map Prod.snd)).flatMap fun p => trials rule x p.1 p.2

section

variable {a : Rat × Rgb Rat × Nat} {rest : List (Rat × Rgb Rat × Nat)} (hnear : nearestColors x colors = a :: rest)
include hnear

theorem cost_eq_foldl :
    Fit.cost (some rule) colors x = ((tries rule x (a :: rest)).foldl better ⟨a.1, a.2.2, a.2.2, 0⟩).cost := by
  rw [Fit.cost, search, hnear]
  rfl

/-- No colour is nearer than the best mix. -/
theorem cost_le_sqDist {c : Rgb Rat} (hc : c ∈ colors) : Fit.cost (some rule) colors x ≤ x.sqDist c := by
  obtain ⟨k, hk⟩ := List.mem_iff_getElem?.1 hc
  have hmem : (x.sqDist c, c, k) ∈ ranked x colors := mem_ranked.2 ⟨rfl, hk⟩
  obtain ⟨b, more, hranked⟩ := List.exists_cons_of_ne_nil (List.ne_nil_of_mem hmem)
  obtain ⟨rfl, -⟩ : b = a ∧ more.take 3 = rest := by
    have htake : (ranked x colors).take candidates = a :: rest := hnear
    rw [hranked] at htake
    exact List.cons.inj htake
  have hsorted : (b :: more).Pairwise fun a b => a.1 ≤ b.1 := hranked ▸ pairwise_ranked
  rw [hranked] at hmem
  refine (cost_eq_foldl rule hnear).trans_le ((foldl_better_le _ _).1.trans ?_)
  rcases List.mem_cons.1 hmem with heq | hmem
  · exact (congrArg Prod.fst heq).ge
  · exact (List.pairwise_cons.1 hsorted).1 _ hmem

/-- No mix that is tried is better than the best one. -/
theorem cost_le_trial {c d : Rgb Rat × Nat} (hp : (c, d) ∈ pairs ((a :: rest).map Prod.snd)) {k : Nat} (hk : 1 ≤ k)
    (hlt : k < rule.levels) : Fit.cost (some rule) colors x ≤ trial rule x c.1 d.1 k := by
  rw [cost_eq_foldl rule hnear]
  refine (foldl_better_le _ _).2 ⟨trial rule x c.1 d.1 k, c.2, d.2, k⟩ (List.mem_flatMap.2 ⟨(c, d), hp, ?_⟩)
  exact List.mem_map.2 ⟨k, List.mem_range'_1.2 (by omega), rfl⟩

theorem paired_of_near : paired x colors = ((a :: rest).map Prod.snd).map Prod.fst := by
  rw [paired, hnear, List.map_map]
  rfl

/-- The best mix is the nearest colour or one that is tried. -/
theorem cost_mem_mixCosts : Fit.cost (some rule) colors x ∈ mixCosts rule x (paired x colors) := by
  rw [paired_of_near hnear, cost_eq_foldl rule hnear]
  rcases foldl_better_cases ⟨a.1, a.2.2, a.2.2, 0⟩ (tries rule x (a :: rest)) with hfold | ⟨hfold, -⟩
  · refine ⟨a.2.1, by simp, a.2.1, by simp, 0, .inl rfl, ?_⟩
    rw [hfold, trial_zero]
    exact (mem_ranked.1 (List.mem_of_mem_take (hnear.symm ▸ List.mem_cons_self))).1
  · obtain ⟨p, hp, hmem⟩ := List.mem_flatMap.1 hfold
    obtain ⟨k, hk, htrial⟩ := List.mem_map.1 hmem
    obtain ⟨hfirst, hsecond⟩ := mem_pairs hp
    rw [List.mem_range'_1] at hk
    refine ⟨p.1.1, List.mem_map_of_mem hfirst, p.2.1, List.mem_map_of_mem hsecond, k, .inr (by omega), ?_⟩
    rw [← htrial]

end

/-- **The cost of the best mix** is the least one of two colours that are paired. -/
theorem cost_isLeast (h : colors ≠ []) :
    IsLeast (mixCosts rule x (paired x colors)) (Fit.cost (some rule) colors x) := by
  have hne : nearestColors x colors ≠ [] := nearestColors_ne_nil h
  obtain ⟨a, rest, hnear⟩ := List.exists_cons_of_ne_nil hne
  refine ⟨cost_mem_mixCosts rule hnear, ?_⟩
  rintro v ⟨c, hc, d, hd, k, hk, rfl⟩
  have hnearest := cost_le_sqDist rule hnear (paired_subset hc)
  by_cases hzero : k = 0
  · rw [hzero, trial_zero]
    exact hnearest
  have hlt : k < rule.levels := hk.resolve_left hzero
  rw [paired_of_near hnear] at hc hd
  obtain ⟨c, hcmem, rfl⟩ := List.mem_map.1 hc
  obtain ⟨d, hdmem, rfl⟩ := List.mem_map.1 hd
  rcases mem_pairs_of_mem hcmem hdmem with heq | hpair | hpair
  · rw [← heq, trial_self]
    exact hnearest
  · exact cost_le_trial rule hnear hpair (by omega) hlt
  · rw [← trial_swap rule _ _ _ hlt]
    exact cost_le_trial rule hnear hpair (by omega) (by omega)

end Mix

/-! ## Further candidates -/

namespace Fit

variable (rule : MixRule Rat) {cs ds : List (Rgb Rat)} (x : Rgb Rat)

/-- A mix is at least as good as the nearest candidate. -/
theorem cost_some_le_cost_none (h : cs ≠ []) : cost (some rule) cs x ≤ cost none cs x := by
  have hne : Mix.nearestColors x cs ≠ [] := Mix.nearestColors_ne_nil h
  obtain ⟨a, rest, hnear⟩ := List.exists_cons_of_ne_nil hne
  obtain ⟨c, hc, hcost⟩ := cost_none_eq x h
  rw [hcost]
  exact Mix.cost_le_sqDist rule hnear (List.mem_of_getElem? hc)

/-- Where all are paired, further candidates do not raise the cost. -/
theorem cost_some_anti (h : cs ≠ []) (hsub : cs ⊆ ds) (hds : ds.length ≤ Mix.candidates) :
    cost (some rule) ds x ≤ cost (some rule) cs x := by
  have hne : ds ≠ [] := by
    rintro rfl
    exact h (List.subset_nil.1 hsub)
  obtain ⟨c, hc, d, hd, k, hk, hcost⟩ := (Mix.cost_isLeast rule (x := x) h).1
  rw [hcost]
  exact (Mix.cost_isLeast rule hne).2 ⟨c, (Mix.mem_paired_iff hds).2 (hsub (Mix.paired_subset hc)), d,
    (Mix.mem_paired_iff hds).2 (hsub (Mix.paired_subset hd)), k, hk, rfl⟩

/-- Where one colour alone is paired, nothing is mixed. -/
theorem cost_some_of_paired_eq (h : cs ≠ []) {c : Rgb Rat} (hc : ∀ d ∈ Mix.paired x cs, d = c) :
    cost (some rule) cs x = x.sqDist c := by
  obtain ⟨d, hd, e, he, k, -, hcost⟩ := (Mix.cost_isLeast rule (x := x) h).1
  rw [hcost, hc d hd, hc e he, Mix.trial_self]

/-- Copies of a candidate change no cost while all candidates are paired, or while there is but one colour. -/
theorem cost_some_append_replicate {c : Rgb Rat} (hc : c ∈ cs) {n : Nat}
    (hn : cs.length + n ≤ max cs.length Mix.candidates ∨ cs.length = 1) :
    cost (some rule) (cs ++ List.replicate n c) x = cost (some rule) cs x := by
  have hne : cs ≠ [] := List.ne_nil_of_mem hc
  by_cases hzero : n = 0
  · rw [hzero, List.replicate_zero, List.append_nil]
  rcases hn with hn | hone
  · have hlength : (cs ++ List.replicate n c).length ≤ Mix.candidates := by
      rw [List.length_append, List.length_replicate]
      omega
    refine le_antisymm (cost_some_anti rule x hne (List.subset_append_left _ _) hlength)
      (cost_some_anti rule x (by simp [hne]) ?_ (by omega))
    exact List.append_subset.2 ⟨List.Subset.refl _, fun d hd => List.eq_of_mem_replicate hd ▸ hc⟩
  · obtain ⟨d, rfl⟩ := List.length_eq_one_iff.1 hone
    obtain rfl := List.mem_singleton.1 hc
    rw [cost_some_of_paired_eq rule x (by simp) (c := c), cost_some_of_paired_eq rule x (by simp) (c := c)]
    · exact fun d hd => List.mem_singleton.1 (Mix.paired_subset hd)
    · intro d hd
      rcases List.mem_append.1 (Mix.paired_subset hd) with hd | hd
      · exact List.mem_singleton.1 hd
      · exact List.eq_of_mem_replicate hd

end Fit

namespace Fit

variable (rule : MixRule Rat) (ts : TileSet) {s : PaletteSet Rat} (hc : 0 < s.candidateCount)
include hc

/-- A new slot does not raise an error with mixes while all candidates are paired. -/
theorem errors_some_addSlot_le (hfew : s.candidateCount < Mix.candidates) (filler : Rgb Rat) (seeds : List (Rgb Rat)) :
    RowsLe (errors (some rule) ts (s.addSlot filler seeds)) (errors (some rule) ts s) := by
  refine errors_le (some rule) (some rule) ts (s.addSlot_size filler seeds) fun p hp x => ?_
  rw [s.candidatesOf_addSlot filler seeds hp hc]
  refine cost_some_anti rule x (PaletteSet.candidatesOf_ne_nil hp hc) (List.subset_append_left _ _) ?_
  rw [List.length_append, s.length_candidatesOf hp]
  exact hfew

/-- Whatever the number of candidates, after a new slot an error with mixes is at most the plain one before it. -/
theorem errors_some_addSlot_le_none (filler : Rgb Rat) (seeds : List (Rgb Rat)) :
    RowsLe (errors (some rule) ts (s.addSlot filler seeds)) (errors none ts s) := by
  refine errors_le (some rule) none ts (s.addSlot_size filler seeds) fun p hp x => ?_
  have hne := PaletteSet.candidatesOf_ne_nil hp hc
  rw [s.candidatesOf_addSlot filler seeds hp hc]
  exact (cost_some_le_cost_none rule x (by simp)).trans (cost_none_anti hne (List.subset_append_left _ _) x)

theorem errors_some_padded {n : Nat} (hn : n ≤ max s.candidateCount Mix.candidates ∨ s.candidateCount = 1) :
    errors (some rule) ts (s.padded (s.firstCandidate + n)) = errors (some rule) ts s := by
  refine errors_congr (some rule) ts (s.padded_size _) fun p hp x => ?_
  obtain ⟨c, hlast, hpadded⟩ := s.candidatesOf_padded (s.firstCandidate + n) hp hc
  rw [hpadded]
  refine cost_some_append_replicate rule x (List.mem_of_getLast? hlast) ?_
  rw [s.length_candidatesOf hp]
  have hcount : s.candidateCount = s.slots - s.firstCandidate := rfl
  omega

end Fit

end Tessera
