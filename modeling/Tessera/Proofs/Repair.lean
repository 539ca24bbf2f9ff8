import Mathlib
import Tessera.Proofs.GuardedPalettes
import Tessera.Proofs.Signs
import Tessera.Proofs.Tensors
/-!
# Clusters that were empty

A repair goes through the empty clusters and moves one point to each, as long as some cluster has more than one. The counts
that it keeps are those of the labels (`Tally.Kept.foldl_handOver`), so it goes by the labels alone. `moves` lists what it
does, step by step. A move fills one cluster and empties none, so as many clusters are filled in the end as
there can be: all of them, or as many as there are points (`card_foldl_handOver`). A cluster that was empty never has more
than one point, so no point is moved twice (`nodup_moves`).
-/

namespace Tessera.Cluster

variable {α : Type} [Scalar α]

/-! ## One step -/

/-- Gives a point to a cluster, with nothing to its distance. -/
def Labelling.move (s : Labelling α) (m : Nat × Nat) : Labelling α := ⟨s.labels.set m.1 m.2, s.own.set m.1 (Scalar.ofNat 0)⟩

/-- Whether the cluster of a label has more than one of the points. -/
def spares (labels : List Nat) (l : Nat) : Bool := 1 < labels.count l

/-- What speaks for handing over a point: its distance, or minus one when its cluster has no other. -/
def score (labels : List Nat) (l : Nat) (d : α) : α := if spares labels l then d else Scalar.ofInt (-1)

/-- The point that is handed over next, when a cluster can spare one. -/
def donor? (s : Labelling α) : Option Nat :=
  if s.labels.any (spares s.labels) then some (Pick.argGreatest (s.labels.zipWith (score s.labels) s.own)) else none

/-- Hands a point to an empty cluster, by the labels alone. -/
def Labelling.handOver (s : Labelling α) (c : Nat) : Labelling α := (donor? s).elim s fun i => s.move (i, c)

/-- There is a distance to each label, and none of them is passed over. -/
structure Labelling.Measured (s : Labelling α) : Prop where
  length_eq : s.own.length = s.labels.length
  outranks : ∀ d ∈ s.own, Pick.Outranks d (Scalar.ofInt (-1))

theorem Labelling.Measured.move [Scalar.Signed α] {s : Labelling α} (h : s.Measured) (m : Nat × Nat) :
    (s.move m).Measured := by
  refine ⟨by simpa [Labelling.move] using h.length_eq, ?_⟩
  intro d hd
  rcases List.mem_or_eq_of_mem_set hd with hd | rfl
  · exact h.outranks d hd
  · exact Scalar.Signed.outranks_zero

/-- Without a point to hand over, every point has a cluster to itself. -/
theorem nodup_of_donor?_eq_none {s : Labelling α} (h : donor? s = none) : s.labels.Nodup := by
  have hspare : ¬ s.labels.any (spares s.labels) = true := fun hany => by simp [donor?, hany] at h
  refine List.nodup_iff_count_le_one.2 fun l => ?_
  by_contra hmany
  refine hspare (List.any_eq_true.2 ⟨l, List.count_pos_iff.1 (by omega), ?_⟩)
  simpa [spares] using hmany

/-- A score is minus one or above it, and where a cluster can spare a point some score is above. -/
theorem outranks_scores {s : Labelling α} (hs : s.Measured) :
    (∀ x ∈ s.labels.zipWith (score s.labels) s.own, x = Scalar.ofInt (-1) ∨ Pick.Outranks x (Scalar.ofInt (-1))) ∧
      (s.labels.any (spares s.labels) = true →
        ∃ x ∈ s.labels.zipWith (score s.labels) s.own, Pick.Outranks x (Scalar.ofInt (-1))) := by
  constructor
  · intro x hx
    obtain ⟨k, hk⟩ := List.mem_iff_getElem?.1 hx
    obtain ⟨l, d, -, hd, rfl⟩ := List.getElem?_zipWith_eq_some.1 hk
    by_cases hl : spares s.labels l
    · exact .inr (by simpa [score, hl] using hs.outranks d (List.mem_of_getElem? hd))
    · exact .inl (by simp [score, hl])
  · intro hspare
    obtain ⟨l, hl, hfree⟩ := List.any_eq_true.1 hspare
    obtain ⟨k, hk⟩ := List.mem_iff_getElem?.1 hl
    obtain ⟨d, hd⟩ : ∃ d, s.own[k]? = some d := by
      have hlt := (List.getElem?_eq_some_iff.1 hk).1
      exact ⟨_, List.getElem?_eq_getElem (by rw [hs.length_eq]; exact hlt)⟩
    refine ⟨score s.labels l d, List.mem_of_getElem? (List.getElem?_zipWith_eq_some.2 ⟨l, d, hk, hd, rfl⟩), ?_⟩
    simpa [score, hfree] using hs.outranks d (List.mem_of_getElem? hd)

/-- The point that is handed over is one of a cluster with several. -/
theorem one_lt_count_donor {s : Labelling α} (hs : s.Measured) {i : Nat} (h : donor? s = some i) :
    ∃ l, s.labels[i]? = some l ∧ 1 < s.labels.count l := by
  by_cases hspare : s.labels.any (spares s.labels) = true
  swap
  · simp [donor?, hspare] at h
  obtain ⟨hscores, hsome⟩ := outranks_scores hs
  obtain ⟨k, v, hgreatest, hv, hrank⟩ := Pick.exists_greatest?_outranks hscores (hsome hspare)
  obtain ⟨l, d, hl, -, rfl⟩ := List.getElem?_zipWith_eq_some.1 hv
  have hi : k = i := by
    rw [donor?, if_pos hspare, Option.some.injEq] at h
    rw [← h, Pick.argGreatest, hgreatest]
    rfl
  subst hi
  refine ⟨l, hl, ?_⟩
  by_contra hfew
  have hmark : score s.labels l d = Scalar.ofInt (-1) := by simp [score, spares, hfew]
  rw [hmark] at hrank
  exact Pick.not_outranks_self _ hrank

/-- A point of a cluster with several can go without leaving its cluster empty. -/
theorem toFinset_set {labels : List Nat} {i l : Nat} (hl : labels[i]? = some l) (hmany : 1 < labels.count l) (c : Nat) :
    (labels.set i c).toFinset = insert c labels.toFinset := by
  obtain ⟨hlt, rfl⟩ := List.getElem?_eq_some_iff.1 hl
  ext x
  rw [Finset.mem_insert, List.mem_toFinset, List.mem_toFinset, ← List.count_pos_iff, ← List.count_pos_iff,
    List.count_set hlt]
  by_cases hxc : c = x
  · subst hxc
    simp
  · by_cases hxl : labels[i] = x
    · subst hxl
      simp [hxc, Ne.symm hxc]
      omega
    · simp [hxc, hxl, Ne.symm hxc]

/-- A hand-over moves a point of a cluster with several, or every point has a cluster to itself. -/
theorem handOver_cases {s : Labelling α} (hs : s.Measured) (c : Nat) :
    (donor? s = none ∧ s.handOver c = s ∧ s.labels.Nodup) ∨
      ∃ i l, donor? s = some i ∧ s.handOver c = s.move (i, c) ∧ s.labels[i]? = some l ∧ 1 < s.labels.count l := by
  rw [Labelling.handOver]
  cases hdonor : donor? s with
  | none => exact .inl ⟨rfl, rfl, nodup_of_donor?_eq_none hdonor⟩
  | some i =>
    obtain ⟨l, hl, hmany⟩ := one_lt_count_donor hs hdonor
    exact .inr ⟨i, l, rfl, rfl, hl, hmany⟩

/-- A hand-over puts a point into no other cluster. -/
theorem notMem_labels_handOver {s : Labelling α} {c x : Nat} (hx : x ∉ s.labels) (hne : x ≠ c) :
    x ∉ (s.handOver c).labels := by
  rw [Labelling.handOver]
  cases donor? s with
  | none => exact hx
  | some i =>
    intro hmem
    rcases List.mem_or_eq_of_mem_set hmem with hmem | hmem
    · exact hx hmem
    · exact hne hmem

/-- A hand-over to an empty cluster leaves single points where there were some. -/
theorem count_labels_handOver_le {s : Labelling α} (hs : s.Measured) {c x : Nat} (hc : c ∉ s.labels)
    (hx : s.labels.count x ≤ 1) : (s.handOver c).labels.count x ≤ 1 := by
  rcases handOver_cases hs c with ⟨-, hstep, -⟩ | ⟨i, l, -, hstep, hl, -⟩
  · rwa [hstep]
  · have hzero : s.labels.count c = 0 := List.count_eq_zero.2 hc
    rw [hstep, Labelling.move, List.count_set (List.getElem?_eq_some_iff.1 hl).1]
    by_cases hxc : c = x
    · subst hxc
      simp [hzero]
    · simp [hxc]
      omega

/-! ## All steps -/

/-- The points that are handed over and the clusters that they go to, in order. -/
def moves : Labelling α → List Nat → List (Nat × Nat)
  | _, [] => []
  | s, c :: cs => (donor? s).toList.map (fun i => (i, c)) ++ moves (s.handOver c) cs

theorem foldl_move_moves (s : Labelling α) (cs : List Nat) :
    (moves s cs).foldl Labelling.move s = cs.foldl Labelling.handOver s := by
  induction cs generalizing s with
  | nil => rfl
  | cons c cs ih =>
    have hstep : ((donor? s).toList.map fun i => (i, c)).foldl Labelling.move s = s.handOver c := by
      rw [Labelling.handOver]
      cases donor? s <;> rfl
    rw [moves, List.foldl_append, hstep, ih, List.foldl_cons]

/-- Once there is nothing to hand over, nothing is. -/
theorem moves_of_donor?_eq_none {s : Labelling α} (h : donor? s = none) (cs : List Nat) : moves s cs = [] := by
  induction cs with
  | nil => rfl
  | cons c cs ih =>
    have hstep : s.handOver c = s := by rw [Labelling.handOver, h]; rfl
    rw [moves, h, hstep, ih]
    rfl

/-- The first of the clusters are filled, in their order. -/
theorem moves_inTurn (s : Labelling α) (cs : List Nat) : (moves s cs).map Prod.snd <+: cs := by
  induction cs generalizing s with
  | nil => exact List.prefix_rfl
  | cons c cs ih =>
    cases hdonor : donor? s with
    | none => simp [moves_of_donor?_eq_none hdonor]
    | some i => simpa [moves, hdonor] using ih (s.handOver c)

section Signed

variable [Scalar.Signed α] {s : Labelling α} (hs : s.Measured)

include hs

theorem measured_handOver (c : Nat) : (s.handOver c).Measured := by
  rw [Labelling.handOver]
  cases donor? s with
  | none => exact hs
  | some i => exact hs.move (i, c)

/-- A cluster that has a point keeps one, and the points are in those clusters or in the ones they are handed to. -/
theorem mem_foldl_handOver (cs : List Nat) :
    (∀ l ∈ s.labels, l ∈ (cs.foldl Labelling.handOver s).labels) ∧
      ∀ l ∈ (cs.foldl Labelling.handOver s).labels, l ∈ s.labels ∨ l ∈ cs := by
  induction cs generalizing s with
  | nil => exact ⟨fun _ hl => hl, fun _ hl => .inl hl⟩
  | cons c cs ih =>
    obtain ⟨hkept, hnew⟩ := ih (measured_handOver hs c)
    rw [List.foldl_cons]
    rcases handOver_cases hs c with ⟨-, hstep, -⟩ | ⟨i, l, -, hstep, hl, hmany⟩
    · rw [hstep] at hkept hnew ⊢
      exact ⟨hkept, fun x hx => (hnew x hx).imp_right (List.mem_cons_of_mem c)⟩
    · have hlabels : ∀ x, x ∈ (s.handOver c).labels ↔ x = c ∨ x ∈ s.labels := by
        intro x
        rw [hstep, ← List.mem_toFinset, Labelling.move, toFinset_set hl hmany, Finset.mem_insert, List.mem_toFinset]
      refine ⟨fun x hx => hkept x ((hlabels x).2 (.inr hx)), fun x hx => ?_⟩
      rcases hnew x hx with hx | hx
      · rcases (hlabels x).1 hx with rfl | hx
        · exact .inr List.mem_cons_self
        · exact .inl hx
      · exact .inr (List.mem_cons_of_mem c hx)

theorem length_labels_foldl_handOver (cs : List Nat) : (cs.foldl Labelling.handOver s).labels.length = s.labels.length := by
  induction cs generalizing s with
  | nil => rfl
  | cons c cs ih =>
    rw [List.foldl_cons, ih (measured_handOver hs c)]
    rcases handOver_cases hs c with ⟨-, hstep, -⟩ | ⟨i, l, -, hstep, -⟩ <;> simp [hstep, Labelling.move]

/-- Every hand-over fills one cluster more, until there are as many as points. -/
theorem card_foldl_handOver {cs : List Nat} (hcs : cs.Nodup) (hempty : ∀ c ∈ cs, c ∉ s.labels) :
    (cs.foldl Labelling.handOver s).labels.toFinset.card = min s.labels.length (s.labels.toFinset.card + cs.length) := by
  induction cs generalizing s with
  | nil => simpa using s.labels.toFinset_card_le
  | cons c cs ih =>
    obtain ⟨hc, hcs⟩ := List.nodup_cons.1 hcs
    obtain ⟨hnew, hempty⟩ := List.forall_mem_cons.1 hempty
    rw [List.foldl_cons]
    rcases handOver_cases hs c with ⟨-, hstep, hnodup⟩ | ⟨i, l, -, hstep, hl, hmany⟩
    · rw [hstep, ih hs hcs hempty, List.toFinset_card_of_nodup hnodup]
      omega
    · have hset : (s.handOver c).labels.toFinset = insert c s.labels.toFinset := by
        rw [hstep, Labelling.move, toFinset_set hl hmany]
      have hfresh : ∀ x ∈ cs, x ∉ (s.handOver c).labels := fun x hx =>
        notMem_labels_handOver (hempty x hx) (ne_of_mem_of_not_mem hx hc)
      have hcard : (s.handOver c).labels.toFinset.card = s.labels.toFinset.card + 1 := by
        rw [hset, Finset.card_insert_of_notMem (by simpa using hnew)]
      have hlength : (s.handOver c).labels.length = s.labels.length := by simp [hstep, Labelling.move]
      rw [ih (measured_handOver hs c) hcs hfresh, hcard, hlength, List.length_cons]
      omega

/-- A point that is moved comes from one of the clusters that had points at first, and each is moved only once: in the other
clusters there is never more than one point. -/
theorem nodup_moves (first : List Nat) {cs : List Nat} (hsingle : ∀ c ∉ first, s.labels.count c ≤ 1) (hcs : cs.Nodup)
    (hempty : ∀ c ∈ cs, c ∉ s.labels ∧ c ∉ first) :
    (∀ m ∈ moves s cs, ∃ l ∈ first, s.labels[m.1]? = some l) ∧ ((moves s cs).map Prod.fst).Nodup := by
  induction cs generalizing s with
  | nil => simp [moves]
  | cons c cs ih =>
    obtain ⟨hc, hcs⟩ := List.nodup_cons.1 hcs
    obtain ⟨⟨hnew, hlate⟩, hempty⟩ := List.forall_mem_cons.1 hempty
    rcases handOver_cases hs c with ⟨hdonor, -, -⟩ | ⟨i, l, hdonor, hstep, hl, hmany⟩
    · simp [moves_of_donor?_eq_none hdonor]
    · have hlt := (List.getElem?_eq_some_iff.1 hl).1
      have hfirst : l ∈ first := by
        by_contra hl'
        exact absurd (hsingle l hl') (by omega)
      obtain ⟨hfrom, hnodup⟩ := ih (measured_handOver hs c)
        (fun x hx => count_labels_handOver_le hs hnew (hsingle x hx)) hcs
        fun x hx => ⟨notMem_labels_handOver (hempty x hx).1 (ne_of_mem_of_not_mem hx hc), (hempty x hx).2⟩
      -- the moved point is now in a cluster that was empty, so it is none of the later ones
      have hlater : ∀ m ∈ moves (s.handOver c) cs, m.1 ≠ i := by
        rintro m hm rfl
        obtain ⟨l', hl', hget'⟩ := hfrom m hm
        rw [hstep, Labelling.move, List.getElem?_set_self hlt] at hget'
        obtain rfl := Option.some.inj hget'
        exact hlate hl'
      have hmoves : moves s (c :: cs) = (i, c) :: moves (s.handOver c) cs := by simp [moves, hdonor]
      rw [hmoves]
      constructor
      · intro m hm
        rcases List.mem_cons.1 hm with rfl | hm
        · exact ⟨l, hfirst, hl⟩
        · obtain ⟨l', hl', hget'⟩ := hfrom m hm
          rw [hstep, Labelling.move, List.getElem?_set_ne (Ne.symm (hlater m hm))] at hget'
          exact ⟨l', hl', hget'⟩
      · rw [List.map_cons, List.nodup_cons]
        refine ⟨fun hmem => ?_, hnodup⟩
        obtain ⟨m, hm, hi⟩ := List.mem_map.1 hmem
        exact hlater m hm hi

end Signed

/-- Points that are moved once each end up in the clusters that they go to, and the others stay. -/
theorem getElem?_foldl_move {ms : List (Nat × Nat)} (hms : (ms.map Prod.fst).Nodup) (s : Labelling α) :
    (∀ i, i ∉ ms.map Prod.fst → (ms.foldl Labelling.move s).labels[i]? = s.labels[i]? ∧
      (ms.foldl Labelling.move s).own[i]? = s.own[i]?) ∧
    ∀ m ∈ ms, m.1 < s.labels.length → s.own.length = s.labels.length →
      (ms.foldl Labelling.move s).labels[m.1]? = some m.2 ∧
      (ms.foldl Labelling.move s).own[m.1]? = some (Scalar.ofNat 0) := by
  induction ms generalizing s with
  | nil => simp
  | cons m ms ih =>
    obtain ⟨hm, hms⟩ := List.nodup_cons.1 hms
    obtain ⟨hstay, hgo⟩ := ih hms (s.move m)
    constructor
    · intro i hi
      rw [List.map_cons, List.mem_cons, not_or] at hi
      obtain ⟨hlabel, hown⟩ := hstay i hi.2
      rw [List.foldl_cons, hlabel, hown, Labelling.move]
      exact ⟨List.getElem?_set_ne (Ne.symm hi.1), List.getElem?_set_ne (Ne.symm hi.1)⟩
    · intro x hx hlt hlen
      rcases List.mem_cons.1 hx with rfl | hx
      · obtain ⟨hlabel, hown⟩ := hstay x.1 hm
        rw [List.foldl_cons, hlabel, hown, Labelling.move]
        exact ⟨List.getElem?_set_self hlt, List.getElem?_set_self (by omega)⟩
      · exact hgo x hx (by simpa [Labelling.move] using hlt) (by simpa [Labelling.move] using hlen)

/-! ## Counts that are kept -/

/-- The counts are those of the labels, for `k` clusters. -/
structure Tally.Kept (t : Tally α) (k : Nat) : Prop where
  length_eq : t.counts.length = k
  getD_eq : ∀ l, t.counts.getD l 0 = t.labels.count l

omit [Scalar α] in
theorem Tally.Kept.canSpare_eq {t : Tally α} {k : Nat} (h : t.Kept k) : canSpare t.counts = spares t.labels := by
  funext l
  rw [canSpare, spares, h.getD_eq]

/-- With counts that are kept, a hand-over goes by the labels alone. -/
theorem Tally.Kept.toLabelling_handOver {t : Tally α} {k : Nat} (h : t.Kept k) (c : Nat) :
    (Cluster.handOver t c).toLabelling = t.toLabelling.handOver c := by
  rw [Cluster.handOver, Labelling.handOver, donor?, h.canSpare_eq]
  split <;> rfl

/-- The point that is handed over is one of the points, whatever the counts and the distances. -/
theorem argGreatest_zipWith_lt {labels : List Nat} (h : labels ≠ []) (f : Nat → α → α) (own : List α) :
    Pick.argGreatest (labels.zipWith f own) < labels.length := by
  have hpos := List.length_pos_iff.2 h
  by_cases hscores : labels.zipWith f own = []
  · rw [hscores]
    exact hpos
  · obtain ⟨v, -, hlt⟩ := Guarded.greatest_eq_ok hscores
    rw [List.length_zipWith] at hlt
    omega

/-- A point that goes to an empty cluster changes the counts of two clusters. -/
theorem getD_recount {labels counts : List Nat} {i l c : Nat} (hl : labels[i]? = some l) (hc : c < counts.length)
    (hnew : c ∉ labels) (hcounts : ∀ x, counts.getD x 0 = labels.count x) (x : Nat) :
    (recount counts l c).getD x 0 = (labels.set i c).count x := by
  obtain ⟨hi, rfl⟩ := List.getElem?_eq_some_iff.1 hl
  have hzero : labels.count c = 0 := List.count_eq_zero.2 hnew
  have hx := hcounts x
  rw [List.getD_eq_getElem?_getD] at hx
  rw [List.getD_eq_getElem?_getD, recount, List.getElem?_set, List.length_modify, List.count_set hi]
  by_cases hxc : c = x
  · subst hxc
    simp [hc, hzero]
  · rw [if_neg hxc, List.getElem?_modify]
    by_cases hxl : labels[i] = x
    · simp only [hxl, if_true, hxc, beq_iff_eq, if_false]
      rw [← hx]
      cases counts[x]? <;> rfl
    · simp [hxc, hxl, hx]

theorem Tally.Kept.handOver {t : Tally α} {k c : Nat} (h : t.Kept k) (hc : c < k) (hnew : c ∉ t.labels) :
    (Cluster.handOver t c).Kept k := by
  rw [Cluster.handOver]
  split
  · rename_i hspare
    obtain ⟨l, hl, -⟩ := List.any_eq_true.1 hspare
    have hi := argGreatest_zipWith_lt (List.ne_nil_of_mem hl)
      (fun l d => if canSpare t.counts l then d else Scalar.ofInt (-1)) t.own
    have hget := List.getElem?_eq_getElem hi
    refine ⟨by simpa [recount] using h.length_eq, fun x => ?_⟩
    dsimp only
    rw [List.getD_eq_getElem _ _ hi]
    exact getD_recount hget (by rw [h.length_eq]; exact hc) hnew h.getD_eq x
  · exact h

/-- **Counts of a repair.** Handing points to different empty clusters keeps the counts, so it goes by the labels alone. -/
theorem Tally.Kept.foldl_handOver {t : Tally α} {k : Nat} (h : t.Kept k) {cs : List Nat} (hcs : cs.Nodup)
    (hempty : ∀ c ∈ cs, c < k ∧ c ∉ t.labels) :
    (cs.foldl Cluster.handOver t).toLabelling = cs.foldl Labelling.handOver t.toLabelling ∧
      (cs.foldl Cluster.handOver t).Kept k := by
  induction cs generalizing t with
  | nil => exact ⟨rfl, h⟩
  | cons c cs ih =>
    obtain ⟨hc, hcs⟩ := List.nodup_cons.1 hcs
    obtain ⟨⟨hlt, hnew⟩, hempty⟩ := List.forall_mem_cons.1 hempty
    have hstep := h.toLabelling_handOver c
    have hfresh : ∀ x ∈ cs, x < k ∧ x ∉ (Cluster.handOver t c).labels := by
      intro x hx
      obtain ⟨hxk, hxnew⟩ := hempty x hx
      rw [hstep]
      exact ⟨hxk, notMem_labels_handOver hxnew (ne_of_mem_of_not_mem hx hc)⟩
    rw [List.foldl_cons, List.foldl_cons, ← hstep]
    exact ih (h.handOver hlt hnew) hcs hfresh

omit [Scalar α] in
theorem kept_countsOf {s : Labelling α} {k : Nat} (h : ∀ l ∈ s.labels, l < k) :
    Tally.Kept (⟨s, countsOf s.labels k⟩ : Tally α) k :=
  ⟨length_countsOf h, getD_countsOf h⟩

omit [Scalar α] in
/-- Counts that are kept are the ones that counting anew would give. -/
theorem Tally.Kept.counts_eq {t : Tally α} {k : Nat} (h : t.Kept k) (hlabels : ∀ l ∈ t.labels, l < k) :
    t.counts = countsOf t.labels k := by
  refine List.ext_getElem (by rw [h.length_eq, length_countsOf hlabels]) fun l hl hl' => ?_
  have hget := (h.getD_eq l).trans (getD_countsOf hlabels l).symm
  rwa [List.getD_eq_getElem _ _ hl, List.getD_eq_getElem _ _ hl'] at hget

/-! ## What a repair comes to -/

section Empty

variable {labels : List Nat} {k : Nat} (h : ∀ l ∈ labels, l < k)

include h

theorem mem_emptyClusters_iff {c : Nat} : c ∈ emptyClusters (countsOf labels k) ↔ c < k ∧ c ∉ labels := by
  rw [emptyClusters_eq h, List.mem_filter, List.mem_range, beq_iff_eq, List.count_eq_zero]

theorem nodup_emptyClusters : (emptyClusters (countsOf labels k)).Nodup := by
  rw [emptyClusters_eq h]
  exact List.nodup_range.filter _

theorem card_add_length_emptyClusters : labels.toFinset.card + (emptyClusters (countsOf labels k)).length = k := by
  have hsubset : labels.toFinset ⊆ Finset.range k := by
    intro c hc
    rw [List.mem_toFinset] at hc
    exact Finset.mem_range.2 (h c hc)
  have hset : (emptyClusters (countsOf labels k)).toFinset = Finset.range k \ labels.toFinset := by
    ext c
    simp [mem_emptyClusters_iff h]
  rw [← List.toFinset_card_of_nodup (nodup_emptyClusters h), hset, Finset.card_sdiff_of_subset hsubset, Finset.card_range]
  have := Finset.card_le_card hsubset
  rw [Finset.card_range] at this
  omega

end Empty

/-- What the moves `ms` make of a labelling with `k` clusters: all labels are of clusters, as many clusters as can be have
points, none has lost all of its own, and each point is moved at most once, to a cluster that was empty. -/
structure Repairs (s : Labelling α) (k : Nat) (ms : List (Nat × Nat)) (t : Labelling α) : Prop where
  length_eq : t.labels.length = s.labels.length
  below : ∀ l ∈ t.labels, l < k
  filled : ((Finset.range k).filter fun c => c ∈ t.labels).card = min s.labels.length k
  full : k ≤ s.labels.length → ∀ c < k, c ∈ t.labels
  kept : ∀ l ∈ s.labels, l ∈ t.labels
  once : (ms.map Prod.fst).Nodup
  moved : ∀ m ∈ ms, m.2 < k ∧ m.2 ∉ s.labels ∧ t.labels[m.1]? = some m.2 ∧ t.own[m.1]? = some (Scalar.ofNat 0)
  unmoved : ∀ i, i ∉ ms.map Prod.fst → t.labels[i]? = s.labels[i]? ∧ t.own[i]? = s.own[i]?

section Repair

variable {s : Labelling α} {k : Nat} (hlabels : ∀ l ∈ s.labels, l < k)

include hlabels

theorem foldl_handOver_countsOf :
    repair s k = (emptyClusters (countsOf s.labels k)).foldl Labelling.handOver s ∧
      ((emptyClusters (countsOf s.labels k)).foldl handOver ⟨s, countsOf s.labels k⟩).Kept k :=
  (kept_countsOf hlabels).foldl_handOver (nodup_emptyClusters hlabels) fun _ hc => (mem_emptyClusters_iff hlabels).1 hc

theorem repairs_repair [Scalar.Signed α] (hs : s.Measured) :
    Repairs s k (moves s (emptyClusters (countsOf s.labels k))) (repair s k) := by
  have hempty : ∀ c ∈ emptyClusters (countsOf s.labels k), c ∉ s.labels ∧ c ∉ s.labels := fun c hc =>
    ⟨((mem_emptyClusters_iff hlabels).1 hc).2, ((mem_emptyClusters_iff hlabels).1 hc).2⟩
  have hnodup := nodup_emptyClusters hlabels
  obtain ⟨hfrom, honce⟩ := nodup_moves hs s.labels (fun c hc => by simp [List.count_eq_zero.2 hc]) hnodup hempty
  obtain ⟨hkept, hnew⟩ := mem_foldl_handOver hs (emptyClusters (countsOf s.labels k))
  obtain ⟨hstay, hgo⟩ := getElem?_foldl_move honce s
  have hlength := length_labels_foldl_handOver hs (emptyClusters (countsOf s.labels k))
  have hcard := card_foldl_handOver hs hnodup fun c hc => (hempty c hc).1
  rw [foldl_move_moves] at hstay hgo
  rw [← (foldl_handOver_countsOf hlabels).1] at hstay hgo hkept hnew hlength hcard
  have hbelow : ∀ l ∈ (repair s k).labels, l < k := by
    intro l hl
    rcases hnew l hl with hl | hl
    · exact hlabels l hl
    · exact mem_emptyClusters hlabels l hl
  have hfilled : ((Finset.range k).filter fun c => c ∈ (repair s k).labels).card = min s.labels.length k := by
    have hset : ((Finset.range k).filter fun c => c ∈ (repair s k).labels) = (repair s k).labels.toFinset := by
      ext c
      simp only [Finset.mem_filter, Finset.mem_range, List.mem_toFinset, and_iff_right_iff_imp]
      exact hbelow c
    rw [hset, hcard, card_add_length_emptyClusters hlabels]
  refine ⟨hlength, hbelow, hfilled, ?_, hkept, honce, ?_, hstay⟩
  · intro hmany c hc
    have hall : ((Finset.range k).filter fun c => c ∈ (repair s k).labels) = Finset.range k :=
      Finset.eq_of_subset_of_card_le (Finset.filter_subset _ _) (by rw [hfilled, Finset.card_range]; omega)
    have hmem : c ∈ (Finset.range k).filter fun c => c ∈ (repair s k).labels := by simpa [hall] using hc
    exact (Finset.mem_filter.1 hmem).2
  · intro m hm
    obtain ⟨l, -, hl⟩ := hfrom m hm
    have hcluster := (moves_inTurn s _).subset (List.mem_map_of_mem hm)
    obtain ⟨hlt, hnot⟩ := (mem_emptyClusters_iff hlabels).1 hcluster
    exact ⟨hlt, hnot, hgo m hm (List.getElem?_eq_some_iff.1 hl).1 hs.length_eq⟩

end Repair

/-! ## Clusters of k-means -/

theorem refined_labels {means : Means α} (points : List (Rgb α)) (weights : List α) (seeds : List Nat) (iterations : Nat)
    {labels : List Nat} {centers : List (Rgb α)}
    (h : means points weights (seeds.map fun i => points.getD i (Rgb.fill (Scalar.ofNat 0))) iterations = (labels, centers)) :
    (refined means points weights seeds iterations).labels =
      (repair ⟨labels, points.zipWith (fun p l => p.sqDist (centers.getD l p)) labels⟩ centers.length).labels := by
  rw [refined, h]
  dsimp only
  split
  · rename_i hsame
    exact (beq_iff_eq.1 hsame).symm
  · rfl

/-- With more different points than clusters, every cluster of k-means has a point. -/
theorem clusters_full [Scalar.Signed α] {means : Means α} (hmeans : means.Lawful) {points : List (Rgb α)}
    {weights : List α} (hweights : weights.length = points.length) {k : Nat} (hk : 0 < k) (hmany : k < distinct points) (iterations : Nat) :
    (clusters means points weights k iterations).labels.length = points.length ∧
      (∀ l ∈ (clusters means points weights k iterations).labels, l < k) ∧
      ∀ c < k, c ∈ (clusters means points weights k iterations).labels := by
  have hlength : k ≤ points.length := hmany.le.trans (distinct_le_length points)
  have hseeds := length_seeds weights hk hlength
  have hstart : ((seeds points weights k).map fun i => points.getD i (Rgb.fill (Scalar.ofNat 0))) ≠ [] := by
    simp [← List.length_pos_iff, hseeds, hk]
  have hfew : ((seeds points weights k).map fun i => points.getD i (Rgb.fill (Scalar.ofNat 0))).length < distinct points := by
    simpa [hseeds] using hmany
  obtain ⟨hlabels, hbelow⟩ := hmeans.labels (max 1 iterations) hweights hstart hfew
  have hcenters := hmeans.centers (max 1 iterations) hweights hstart hfew
  rw [List.length_map, hseeds] at hbelow hcenters
  cases hfound : means points weights
      ((seeds points weights k).map fun i => points.getD i (Rgb.fill (Scalar.ofNat 0))) (max 1 iterations) with
  | mk labels centers =>
    rw [hfound] at hlabels hbelow hcenters
    dsimp only at hlabels hbelow hcenters
    rw [clusters, if_neg (by omega), refined_labels points weights _ _ hfound, hcenters]
    have hrepairs := repairs_repair (s := ⟨labels, points.zipWith (fun p l => p.sqDist (centers.getD l p)) labels⟩) hbelow
      ⟨by simp [hlabels], fun d hd => ?_⟩
    · exact ⟨hrepairs.length_eq.trans hlabels, hrepairs.below, hrepairs.full (by simpa [hlabels] using hlength)⟩
    · obtain ⟨i, hi⟩ := List.mem_iff_getElem?.1 hd
      obtain ⟨p, l, -, -, rfl⟩ := List.getElem?_zipWith_eq_some.1 hi
      exact Scalar.Signed.outranks_sqDist _ _

/-! ## Labels as loose values -/

/-- Labels and counts with distances of any shape. -/
def Tally.draft (t : Tally Float) : LabellingDraft := ⟨t.labels, ⟨[t.own.length], t.own.toArray⟩, t.counts⟩

/-- A labelling as one of any shape, with the counts of `k` clusters. -/
def Labelling.draft (s : Labelling Float) (k : Nat) : LabellingDraft := Tally.draft ⟨s, countsOf s.labels k⟩

theorem cleared_row {xs : List Float} {i : Nat} (h : i < xs.length) :
    cleared ⟨[xs.length], xs.toArray⟩ i = .ok ⟨[xs.length], (xs.set i (Scalar.ofNat 0)).toArray⟩ := by
  have hset : xs.toArray.mapIdx (fun j x => if j / Tensor.cells [] = i then (0.0 : Float) else x) =
      (xs.set i (Scalar.ofNat 0)).toArray := by
    apply Array.ext
    · simp
    · intro j h1 h2
      simp only [Tensor.cells, List.foldr_nil, Nat.div_one, Array.getElem_mapIdx, List.getElem_toArray, List.getElem_set]
      split
      · rename_i hj
        rw [if_pos hj.symm]
        rfl
      · rename_i hj
        rw [if_neg (Ne.symm hj)]
  simp only [cleared, if_pos h, hset]
  rfl

theorem handOverGiven_draft {t : Tally Float} (h : t.own.length = t.labels.length) (c : Nat) :
    handOverGiven t.draft c = .ok (handOver t c).draft := by
  rw [handOverGiven, handOver]
  have hlabels : t.draft.labels = t.labels := rfl
  have hcounts : t.draft.counts = t.counts := rfl
  have howns : t.draft.own = ⟨[t.own.length], t.own.toArray⟩ := rfl
  simp only [hlabels, hcounts, howns]
  split
  · rename_i hspare
    obtain ⟨l, hl, -⟩ := List.any_eq_true.1 hspare
    have hpos := List.length_pos_of_mem hl
    have hscores := Tensor.zipWith?_row (fun (free : Bool) (d : Float) => if free then d else -1.0)
      (t.labels.map (canSpare t.counts)) t.own (by simpa using h)
    rw [List.length_map, List.zipWith_map_left] at hscores
    have hlt := argGreatest_zipWith_lt (List.ne_nil_of_mem hl) (fun l d => if canSpare t.counts l then d else -1.0) t.own
    have hne : ¬ (t.labels.zipWith (fun l d => if canSpare t.counts l then d else -1.0) t.own).toArray.isEmpty = true := by
      simp [← List.length_eq_zero_iff, h]
      omega
    have hcleared := @cleared_row t.own _ (by rw [h]; exact hlt)
    simp only [hscores, if_neg hne, if_pos hlt, hcleared, bind, Except.bind]
    simp only [Tally.draft, List.length_set, pure, Except.pure]
    rfl
  · rfl

theorem length_own_handOver {t : Tally α} (h : t.own.length = t.labels.length) (c : Nat) :
    (handOver t c).own.length = (handOver t c).labels.length := by
  rw [handOver]
  split
  · simpa using h
  · exact h

theorem foldlM_handOverGiven {t : Tally Float} (h : t.own.length = t.labels.length) (cs : List Nat) :
    cs.foldlM handOverGiven t.draft = .ok (cs.foldl handOver t).draft := by
  induction cs generalizing t with
  | nil => rfl
  | cons c cs ih =>
    rw [List.foldlM_cons, handOverGiven_draft h]
    exact ih (length_own_handOver h c)

/-- Lists of labels and of distances are repaired as labellings are, as long as there is room for the clusters, and the
counts are those of the labels in the end. -/
theorem repairGiven_eq_ok {s : Labelling Float} (hs : s.Measured) {k : Nat} (hlabels : ∀ l ∈ s.labels, l < k)
    (hroom : k < 0x200000000) :
    repairGiven (.list (s.labels.map fun l : Nat => .int l)) (.list (s.own.map .float)) (.int k) =
      .ok ((repair s k).draft k) := by
  have hread : Tensor.ofValue (Value.within (-Value.wordLimit) Value.wordLimit) (.list (s.labels.map fun l : Nat => .int l)) =
      .ok ⟨[s.labels.length], (s.labels.map fun l : Nat => (l : Int)).toArray⟩ := by
    refine Tensor.ofValue_list (fun l => by simp [Table.ofValue]) fun l hl => ?_
    have hword : -Value.wordLimit ≤ (l : Int) ∧ (l : Int) < Value.wordLimit := by
      have := hlabels l hl
      rw [Value.wordLimit]
      omega
    exact Value.within_int hword
  have hreals : Tensor.reals (.list (s.own.map .float)) = .ok ⟨[s.own.length], s.own.toArray⟩ := by
    have hrow : Tensor.ofValue Value.cell (.list (s.own.map .float)) = .ok ⟨[s.own.length], (s.own.map id).toArray⟩ :=
      Tensor.ofValue_list (fun x => by simp [Table.ofValue]) fun x _ => rfl
    rw [List.map_id] at hrow
    exact hrow
  have hnonneg : labelsOf ⟨[s.labels.length], (s.labels.map fun l : Nat => (l : Int)).toArray⟩ = .ok s.labels := by
    have hany : ¬ (s.labels.map fun l : Nat => (l : Int)).toArray.any (· < 0) = true := by simp
    rw [labelsOf, if_neg hany, List.map_map]
    simp [Function.comp_def]
    rfl
  have hcount : countOf (.int k) = .ok k := by
    have h1 : ¬ (k : Int) < 0 := by omega
    have h2 : (k : Int) < Value.wordLimit := by rw [Value.wordLimit]; omega
    simp only [countOf, if_neg h1, if_pos h2, Int.toNat_natCast]
    rfl
  have hmost : s.labels.foldl (fun m l => max m (l + 1)) k = k := foldl_max_eq hlabels
  have hchecked : Tensor.checkCount k = .ok () := by
    rw [Tensor.checkCount, if_pos hroom]
    rfl
  rw [repairGiven, hread, Guarded.ok_bind, hreals, Guarded.ok_bind, if_neg (by simp [Tensor.rank]), hcount, Guarded.ok_bind,
    hnonneg, Guarded.ok_bind, hmost, hchecked, Guarded.ok_bind]
  have hcounts : ((emptyClusters (countsOf s.labels k)).foldl handOver ⟨s, countsOf s.labels k⟩).counts =
      countsOf (repair s k).labels k :=
    (foldl_handOver_countsOf hlabels).2.counts_eq (repairs_repair hlabels hs).below
  rw [Labelling.draft, ← hcounts]
  exact foldlM_handOverGiven (t := ⟨s, countsOf s.labels k⟩) hs.length_eq _

/-- **Empty clusters.** Whatever the labels and distances, a repair fills as many clusters as there can be, empties none and
moves each point at most once, to a cluster that was empty. Lists of labels and distances that are handed in are repaired
the same way, with counts that are those of the labels in the end. So where there are more different points than clusters
every cluster gets one, with any lawful k-means. -/
theorem repair_fills [Scalar.Signed α] {k : Nat} (hk : 1 ≤ k) :
    (∀ s : Labelling α, (∀ l ∈ s.labels, l < k) → s.own.length = s.labels.length → (∀ d ∈ s.own, Scalar.ofNat 0 ≤ d) →
      Repairs s k (moves s (emptyClusters (countsOf s.labels k))) (repair s k)) ∧
    (∀ s : Labelling Float, (∀ l ∈ s.labels, l < k) → s.own.length = s.labels.length → (∀ d ∈ s.own, Scalar.ofNat 0 ≤ d) →
      k < 0x200000000 →
      repairGiven (.list (s.labels.map fun l : Nat => .int l)) (.list (s.own.map .float)) (.int k) =
        .ok ((repair s k).draft k)) ∧
    ∀ (means : Means α), means.Lawful → ∀ (points : List (Rgb α)) (weights : List α) (iterations : Nat),
      weights.length = points.length → k < distinct points →
      (clusters means points weights k iterations).labels.length = points.length ∧
        (∀ l ∈ (clusters means points weights k iterations).labels, l < k) ∧
        ∀ c < k, c ∈ (clusters means points weights k iterations).labels := by
  refine ⟨?_, ?_, ?_⟩
  · intro s hlabels hlength hown
    exact repairs_repair hlabels ⟨hlength, fun d hd => Scalar.Signed.outranks_of_nonneg (hown d hd)⟩
  · intro s hlabels hlength hown hroom
    exact repairGiven_eq_ok ⟨hlength, fun d hd => Scalar.Signed.outranks_of_nonneg (hown d hd)⟩ hlabels hroom
  · intro means hmeans points weights iterations hweights hmany
    exact clusters_full hmeans hweights hk hmany iterations

/-- Four points in two of four clusters, and the two that are farthest from their centres at the same distance. -/
def crowded : Labelling Float := ⟨[0, 0, 2, 0], [1.0, 3.0, 0.5, 3.0]⟩

/-- Five greys for four clusters. -/
def greys : List (Rgb Float) := [0.0, 8.0, 9.0, 100.0, 250.0].map Rgb.fill

/-- The two farthest points of the crowded cluster go to the empty ones, the first of them first; and five greys fill four
clusters. -/
theorem repair_fills_crowded :
    Repairs crowded 4 [(1, 1), (3, 3)] (repair crowded 4) ∧ (repair crowded 4).labels = [0, 1, 2, 3] ∧
    ∀ c < 4, c ∈ (clusters lloyd greys [1.0, 1.0, 1.0, 1.0, 1.0] 4 12).labels := by
  obtain ⟨hrepair, -, hclusters⟩ := @repair_fills Float _ _ 4 (by decide)
  have hmoves : moves crowded (emptyClusters (countsOf crowded.labels 4)) = [(1, 1), (3, 3)] := by decide +kernel
  refine ⟨hmoves ▸ hrepair crowded (by decide) rfl (by decide +kernel), by decide +kernel, ?_⟩
  exact (hclusters lloyd lloyd_lawful greys [1.0, 1.0, 1.0, 1.0, 1.0] 12 rfl (by decide +kernel)).2.2

end Tessera.Cluster
