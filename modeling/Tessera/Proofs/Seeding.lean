import Mathlib
import Tessera.Proofs.Agreement
import Tessera.Proofs.GuardedPalettes
import Tessera.Proofs.Removal
/-!
# Seeds that lie apart

Seeds are chosen one after the other, and along with them goes the distance of every point to its nearest seed. It is
positive as long as a point differs from all seeds, so a new seed is a new point until there are no others left
(`nodup_map_take`). With as many clusters as different points or more, the seeds are all the points there are, and every
point has a centre of its own (`ownCenters_eachOwn`). All of this is exact arithmetic.
-/

namespace Tessera

/-! ## The first greatest -/

namespace Pick

/-- To choose the greatest is to choose the least of what is turned about. -/
theorem greatestFrom_eq (i place : Nat) (best : Rat) (xs : List Rat) :
    greatestFrom i place best xs =
      ((leastFrom i place (-best) (xs.map Neg.neg)).1, -(leastFrom i place (-best) (xs.map Neg.neg)).2) := by
  induction xs generalizing i place best with
  | nil => simp [greatestFrom, leastFrom]
  | cons x xs ih =>
    rw [greatestFrom, List.map_cons, leastFrom, isMore_rat, isLess_rat]
    simp only [decide_eq_true_eq, neg_lt_neg_iff]
    split
    · exact ih (i + 1) i x
    · exact ih (i + 1) place best

theorem argGreatest_eq (xs : List Rat) : argGreatest xs = argLeast (xs.map Neg.neg) := by
  cases xs with
  | nil => rfl
  | cons x xs => simp [argGreatest, argLeast, greatest?, least?, greatestFrom_eq]

/-- The chosen place holds the greatest value, and it is the first that does. -/
theorem argGreatest_spec {xs : List Rat} (h : xs ≠ []) :
    ∃ v, xs[argGreatest xs]? = some v ∧ (∀ x ∈ xs, x ≤ v) ∧ ∀ j < argGreatest xs, ∀ x, xs[j]? = some x → x < v := by
  obtain ⟨k, v, hk, hv⟩ := exists_least? (show xs.map Neg.neg ≠ [] by simpa using h)
  have harg : argGreatest xs = k := by rw [argGreatest_eq, argLeast, hk]; rfl
  rw [List.getElem?_map, Option.map_eq_some_iff] at hv
  obtain ⟨w, hw, rfl⟩ := hv
  refine ⟨w, by rw [harg]; exact hw, fun x hx => ?_, fun j hj x hx => ?_⟩
  · exact neg_le_neg_iff.1 (least?_le hk (-x) (List.mem_map_of_mem hx))
  · rw [harg] at hj
    exact neg_lt_neg_iff.1 (least?_first hk j (-x) (by rw [List.getElem?_map, hx]; rfl) hj)

theorem lesser_rat (x y : Rat) : lesser x y = min x y := by
  rw [lesser, isLess_rat, min_def]
  by_cases h : y < x
  · simp [h, not_le.2 h]
  · simp [h, not_lt.1 h]

end Pick

/-! ## Distances to the nearest of some colours -/

namespace Fit

theorem leastSquare_singleton (c x : Rgb Rat) : leastSquare [c] x = x.sqDist c :=
  leastSquare_eq List.mem_cons_self (by simp)

theorem leastSquare_concat {colors : List (Rgb Rat)} (h : colors ≠ []) (c x : Rgb Rat) :
    leastSquare (colors ++ [c]) x = min (leastSquare colors x) (x.sqDist c) := by
  obtain ⟨d, hd, heq, hleast⟩ := exists_leastSquare h x
  rw [heq]
  by_cases hle : x.sqDist d ≤ x.sqDist c
  · rw [min_eq_left hle]
    refine leastSquare_eq (List.mem_append_left _ hd) ?_
    simpa [or_imp, forall_and] using ⟨hleast, hle⟩
  · rw [min_eq_right (le_of_not_ge hle)]
    refine leastSquare_eq (by simp) ?_
    have hall : ∀ e ∈ colors, x.sqDist c ≤ x.sqDist e := fun e he => (le_of_not_ge hle).trans (hleast e he)
    simpa [or_imp, forall_and] using hall

end Fit

namespace Cluster

/-- The point at a position; black beyond the end. -/
def pointAt {α : Type} [Scalar α] (points : List (Rgb α)) (i : Nat) : Rgb α := points.getD i (Rgb.fill (Scalar.ofNat 0))

theorem pointAt_mem {α : Type} [Scalar α] {points : List (Rgb α)} {i : Nat} (h : i < points.length) :
    pointAt points i ∈ points := by
  rw [pointAt, List.getD_eq_getElem _ _ h]
  exact List.getElem_mem h

variable {points : List (Rgb Rat)} {weights : List Rat}

/-- The number of different points is the size of the set of them. -/
theorem distinct_eq_card (points : List (Rgb Rat)) : distinct points = points.toFinset.card := by
  induction points with
  | nil => rfl
  | cons p ps ih =>
    have hsame : ps.any p.same = true ↔ p ∈ ps := by
      rw [List.any_eq_true]
      constructor
      · rintro ⟨q, hq, hpq⟩
        have hpq : p = q := by
          obtain ⟨⟨hr, hg⟩, hb⟩ : (p.r = q.r ∧ p.g = q.g) ∧ p.b = q.b := by simpa [Rgb.same] using hpq
          cases p; cases q
          simp_all
        exact hpq ▸ hq
      · intro hp
        exact ⟨p, hp, by simp [Rgb.same]⟩
    rw [distinct, List.toFinset_cons]
    by_cases hp : p ∈ ps
    · rw [if_pos (hsame.2 hp), ih, Finset.insert_eq_of_mem (by simpa using hp)]
    · rw [if_neg (fun h => hp (hsame.1 h)), ih, Finset.card_insert_of_notMem (by simpa using hp)]

/-! ## One seed after the other -/

/-- Of all points the one at a position is farthest from its nearest seed. -/
def Farthest (points : List (Rgb Rat)) (before : List Nat) (i : Nat) : Prop :=
  ∀ p ∈ points, Fit.leastSquare (before.map (pointAt points)) p ≤ Fit.leastSquare (before.map (pointAt points)) (pointAt points i)

theorem distancesFrom_eq {i : Nat} (h : i < points.length) :
    distancesFrom points i = points.map fun p => p.sqDist (pointAt points i) := by
  rw [distancesFrom, List.getElem?_eq_getElem h, pointAt, List.getD_eq_getElem _ _ h]

theorem argGreatest_farthest (hpoints : points ≠ []) (before : List Nat) :
    Pick.argGreatest (points.map (Fit.leastSquare (before.map (pointAt points)))) < points.length ∧
      Farthest points before (Pick.argGreatest (points.map (Fit.leastSquare (before.map (pointAt points))))) := by
  obtain ⟨v, hv, hmost, -⟩ :=
    Pick.argGreatest_spec (show points.map (Fit.leastSquare (before.map (pointAt points))) ≠ [] by simpa using hpoints)
  obtain ⟨hlt, hget⟩ := List.getElem?_eq_some_iff.1 hv
  rw [List.length_map] at hlt
  refine ⟨hlt, fun p hp => ?_⟩
  rw [pointAt, List.getD_eq_getElem _ _ hlt]
  rw [List.getElem_map] at hget
  rw [hget]
  exact hmost _ (List.mem_map_of_mem hp)

/-- Along with a new seed the distances to the nearest one are kept up to date. -/
theorem zipWith_lesser_distancesFrom {before : List Nat} (hbefore : before ≠ []) {i : Nat} (h : i < points.length) :
    (points.map (Fit.leastSquare (before.map (pointAt points)))).zipWith Pick.lesser (distancesFrom points i) =
      points.map (Fit.leastSquare ((before ++ [i]).map (pointAt points))) := by
  rw [distancesFrom_eq h, List.zipWith_map, List.zipWith_self]
  refine List.map_congr_left fun p _ => ?_
  rw [Pick.lesser_rat, List.map_append, List.map_singleton, Fit.leastSquare_concat (by simpa using hbefore)]

/-- Each further seed is a farthest point, given the seeds before it. -/
theorem seedsFrom_farthest (hpoints : points ≠ []) (n : Nat) {before : List Nat} (hbefore : before ≠ []) {mid after : List Nat}
    {i : Nat}
    (h : seedsFrom points n (points.map (Fit.leastSquare (before.map (pointAt points)))) = mid ++ i :: after) :
    Farthest points (before ++ mid) i := by
  induction n generalizing before mid with
  | zero => simp [seedsFrom] at h
  | succ n ih =>
    obtain ⟨hlt, hfar⟩ := argGreatest_farthest hpoints before
    rw [seedsFrom, zipWith_lesser_distancesFrom hbefore hlt] at h
    cases mid with
    | nil =>
      obtain ⟨rfl, -⟩ := List.cons.inj h
      simpa using hfar
    | cons m mid =>
      obtain ⟨rfl, hrest⟩ := List.cons.inj h
      have hnext := ih (by simp) hrest
      rwa [List.append_assoc] at hnext

theorem seeds_farthest (hpoints : points ≠ []) (hweights : weights.length = points.length) {k i : Nat}
    {before after : List Nat} (hbefore : before ≠ []) (h : seeds points weights k = before ++ i :: after) :
    Farthest points before i := by
  have hne : weights ≠ [] := by
    rw [ne_eq, ← List.length_eq_zero_iff, hweights, List.length_eq_zero_iff]
    exact hpoints
  obtain ⟨v, hv, -, -⟩ := Pick.argGreatest_spec hne
  have hfirst : Pick.argGreatest weights < points.length := hweights ▸ (List.getElem?_eq_some_iff.1 hv).1
  have hnearest : distancesFrom points (Pick.argGreatest weights) =
      points.map (Fit.leastSquare ([Pick.argGreatest weights].map (pointAt points))) := by
    rw [distancesFrom_eq hfirst]
    refine List.map_congr_left fun p _ => ?_
    rw [List.map_singleton, Fit.leastSquare_singleton]
  obtain ⟨b, before, rfl⟩ := List.exists_cons_of_ne_nil hbefore
  rw [seeds] at h
  obtain ⟨rfl, hrest⟩ := List.cons.inj h
  rw [hnearest] at hrest
  have hnext := seedsFrom_farthest hpoints _ (List.cons_ne_nil _ _) hrest
  rwa [List.singleton_append] at hnext

/-! ## Different points first -/

/-- A farthest point is a new one as long as there are others. -/
theorem Farthest.new {before : List Nat} {i : Nat} (h : Farthest points before i) (hbefore : before ≠ [])
    (hfew : before.length < distinct points) : pointAt points i ∉ before.map (pointAt points) := by
  have hne : before.map (pointAt points) ≠ [] := by simpa using hbefore
  have hcard : (before.map (pointAt points)).toFinset.card < points.toFinset.card := by
    refine lt_of_le_of_lt (List.toFinset_card_le _) ?_
    rwa [List.length_map, ← distinct_eq_card]
  obtain ⟨p, hp, hnew⟩ := Finset.exists_mem_notMem_of_card_lt_card hcard
  rw [List.mem_toFinset] at hp hnew
  have hpos := (Fit.leastSquare_pos_iff hne p).2 hnew
  exact (Fit.leastSquare_pos_iff hne _).1 (hpos.trans_le (h p hp))

/-- Seeds that are each farthest from those before are different points, until all have had their turn. -/
theorem nodup_map_take {l : List Nat}
    (hfar : ∀ before i after, l = before ++ i :: after → before ≠ [] → Farthest points before i) {m : Nat}
    (hm : m ≤ distinct points) : ((l.take m).map (pointAt points)).Nodup := by
  induction m with
  | zero => simp
  | succ m ih =>
    by_cases hlt : m < l.length
    · have hsplit : l = l.take m ++ l[m] :: l.drop (m + 1) := by simp
      rw [List.take_add_one, List.getElem?_eq_getElem hlt, Option.toList_some, List.map_append, List.map_singleton,
        List.nodup_append]
      refine ⟨ih (by omega), List.nodup_singleton _, ?_⟩
      rintro a ha b hb rfl
      rw [List.mem_singleton] at hb
      subst hb
      have hne : l.take m ≠ [] := by
        rintro hnil
        rw [hnil] at ha
        cases ha
      exact (hfar _ _ _ hsplit hne).new hne (by rw [List.length_take]; omega) ha
    · rw [List.take_of_length_le (by omega)]
      have := ih (by omega)
      rwa [List.take_of_length_le (by omega)] at this

/-- As many seeds as there are different points are all of them. -/
theorem mem_map_take {l : List Nat} (hlt : ∀ i ∈ l, i < points.length) (hlength : distinct points ≤ l.length)
    (hnodup : ((l.take (distinct points)).map (pointAt points)).Nodup) {p : Rgb Rat} (hp : p ∈ points) :
    p ∈ (l.take (distinct points)).map (pointAt points) := by
  have hsubset : ((l.take (distinct points)).map (pointAt points)).toFinset ⊆ points.toFinset := by
    intro q hq
    rw [List.mem_toFinset] at hq ⊢
    obtain ⟨i, hi, rfl⟩ := List.mem_map.1 hq
    exact pointAt_mem (hlt i (List.mem_of_mem_take hi))
  have hcard : points.toFinset.card ≤ ((l.take (distinct points)).map (pointAt points)).toFinset.card := by
    rw [List.toFinset_card_of_nodup hnodup, List.length_map, List.length_take, ← distinct_eq_card]
    omega
  rw [← List.mem_toFinset, Finset.eq_of_subset_of_card_le hsubset hcard]
  exact List.mem_toFinset.2 hp

/-! ## A centre for every point -/

/-- A label with the nearest of centres among which the point itself is. -/
theorem labelAll_exact {centers : List (Rgb Rat)} (hall : ∀ p ∈ points, p ∈ centers) {i : Nat} {p : Rgb Rat}
    (hp : points[i]? = some p) :
    ∃ l c, (labelAll centers points)[i]? = some l ∧ centers[l]? = some c ∧ p.sqDist c = 0 := by
  have hmem := hall p (List.mem_of_getElem? hp)
  obtain ⟨l, v, hl, hv⟩ := Pick.exists_least? (show centers.map p.sqDist ≠ [] by simpa using List.ne_nil_of_mem hmem)
  rw [List.getElem?_map, Option.map_eq_some_iff] at hv
  obtain ⟨c, hc, rfl⟩ := hv
  have hle := Pick.least?_le hl _ (List.mem_map_of_mem hmem)
  rw [Rgb.sqDist_self] at hle
  refine ⟨l, c, ?_, hc, le_antisymm hle (p.sqDist_nonneg c)⟩
  rw [labelAll, List.getElem?_map, hp, Option.map_some, Pick.argLeast, hl]
  rfl

theorem centers_eachOwn (points : List (Rgb Rat)) (seeds : List Nat) (k : Nat) :
    (eachOwn points seeds k).centers = (List.range k).map fun c => pointAt points (seeds[c]?.getD (c % points.length)) := by
  refine List.map_congr_left fun c _ => ?_
  cases seeds[c]? <;> rfl

/-- Every point has a centre that is the point itself, and all centres are points. -/
structure OwnCenters (points : List (Rgb Rat)) (k : Nat) (found : Clusters Rat) : Prop where
  length_centers : found.centers.length = k
  length_labels : found.labels.length = points.length
  centers_mem : ∀ c ∈ found.centers, c ∈ points
  at_own : ∀ (i : Nat) (p : Rgb Rat), points[i]? = some p →
    ∃ l c, found.labels[i]? = some l ∧ found.centers[l]? = some c ∧ p.sqDist c = 0

theorem ownCenters_eachOwn (hpoints : points ≠ []) {seeds : List Nat} (hlt : ∀ i ∈ seeds, i < points.length)
    (hlength : distinct points ≤ seeds.length)
    (hnodup : ((seeds.take (distinct points)).map (pointAt points)).Nodup) {k : Nat} (hk : distinct points ≤ k) :
    OwnCenters points k (eachOwn points seeds k) := by
  have hall : ∀ p ∈ points, p ∈ (eachOwn points seeds k).centers := by
    intro p hp
    obtain ⟨i, hi, rfl⟩ := List.mem_map.1 (mem_map_take hlt hlength hnodup hp)
    obtain ⟨c, hc⟩ := List.mem_iff_getElem?.1 hi
    rw [List.getElem?_take, ite_eq_iff] at hc
    obtain ⟨hc, hget⟩ | ⟨-, hnone⟩ := hc
    · rw [centers_eachOwn]
      exact List.mem_map.2 ⟨c, List.mem_range.2 (by omega), by rw [hget]; rfl⟩
    · cases hnone
  refine ⟨by simp [eachOwn], by simp [eachOwn, labelAll], fun c hc => ?_, fun i p hp => labelAll_exact hall hp⟩
  rw [centers_eachOwn] at hc
  obtain ⟨j, -, rfl⟩ := List.mem_map.1 hc
  refine pointAt_mem ?_
  cases hj : seeds[j]? with
  | none => exact Nat.mod_lt _ (List.length_pos_iff.2 hpoints)
  | some i => exact hlt i (List.mem_of_getElem? hj)

/-- **Seeds that lie apart.** There is a seed for each cluster or for each point, whichever are fewer. The first is the first of
the heaviest points. The seeds are different points as long as there are others left, and each is at least as far from all
seeds before it as any point is from the nearest of them. With clusters for all different points every point is its own
centre. -/
theorem seeds_spread (hpoints : points ≠ []) (hweights : weights.length = points.length) {k : Nat} (hk : 1 ≤ k) :
    distinct points = points.toFinset.card ∧
    (seeds points weights k).length = min k points.length ∧
    (∀ i ∈ seeds points weights k, i < points.length) ∧
    (∃ i w, (seeds points weights k).head? = some i ∧ weights[i]? = some w ∧ (∀ x ∈ weights, x ≤ w) ∧
      ∀ j < i, ∀ x, weights[j]? = some x → x < w) ∧
    (((seeds points weights k).take (min k (distinct points))).map (pointAt points)).Nodup ∧
    (∀ before i after, seeds points weights k = before ++ i :: after → before ≠ [] →
      ∀ b ∈ before, ∀ p ∈ points, ∃ a ∈ before,
        p.sqDist (pointAt points a) ≤ (pointAt points i).sqDist (pointAt points b)) ∧
    (distinct points ≤ k → ∀ means iterations, OwnCenters points k (clusters means points weights k iterations)) := by
  have hne : weights ≠ [] := by
    rw [ne_eq, ← List.length_eq_zero_iff, hweights, List.length_eq_zero_iff]
    exact hpoints
  have hpos := List.length_pos_iff.2 hpoints
  have hlength : (seeds points weights k).length = min k points.length := by
    simp only [seeds, List.length_cons, length_seedsFrom]
    omega
  have hlt := (Guarded.seeds_eq_ok hpoints hweights k).2
  have hfar : ∀ before i after, seeds points weights k = before ++ i :: after → before ≠ [] → Farthest points before i :=
    fun before i after h hbefore => seeds_farthest hpoints hweights hbefore h
  obtain ⟨w, hw, hmost, hfirst⟩ := Pick.argGreatest_spec hne
  refine ⟨distinct_eq_card points, hlength, hlt, ⟨_, w, rfl, hw, hmost, hfirst⟩,
    nodup_map_take hfar (Nat.min_le_right _ _), ?_, ?_⟩
  · intro before i after h hbefore b hb p hp
    have hcolors : before.map (pointAt points) ≠ [] := by simpa using hbefore
    obtain ⟨c, hc, hnearest, -⟩ := Fit.exists_leastSquare hcolors p
    obtain ⟨d, -, hseed, hleast⟩ := Fit.exists_leastSquare hcolors (pointAt points i)
    obtain ⟨a, ha, rfl⟩ := List.mem_map.1 hc
    refine ⟨a, ha, ?_⟩
    have hle := hfar before i after h hbefore p hp
    rw [hnearest, hseed] at hle
    exact hle.trans (hleast _ (List.mem_map_of_mem hb))
  · intro hfew means iterations
    rw [clusters, if_pos hfew]
    have := distinct_le_length points
    exact ownCenters_eachOwn hpoints hlt (by omega) (nodup_map_take hfar le_rfl) hfew

/-- Three points, of which two are the same, for four clusters. -/
def doubled : List (Rgb Rat) := [⟨0, 0, 0⟩, ⟨3, 4, 0⟩, ⟨0, 0, 0⟩]

/-- The second and third point weigh the same, so the second is the first seed. All points have centres of their own. -/
theorem seeds_spread_doubled :
    seeds doubled [1, 2, 2] 4 = [1, 0, 0] ∧ distinct doubled = 2 ∧
    (((seeds doubled [1, 2, 2] 4).take 2).map (pointAt doubled)).Nodup ∧
    OwnCenters doubled 4 (clusters lloyd doubled [1, 2, 2] 4 1) := by
  have hdistinct : distinct doubled = 2 := by decide +kernel
  obtain ⟨-, -, -, -, hnodup, -, hexact⟩ := @seeds_spread doubled [1, 2, 2] (by decide) rfl 4 (by decide)
  rw [hdistinct, show min 4 2 = 2 from rfl] at hnodup
  rw [hdistinct] at hexact
  have hseeds : seeds doubled [1, 2, 2] 4 = [1, 0, 0] := by decide +kernel
  exact ⟨hseeds, hdistinct, hnodup, hexact (by decide) lloyd 1⟩

end Cluster

end Tessera
