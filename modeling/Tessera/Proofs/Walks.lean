import Mathlib
import Tessera.Order.Walks
import Tessera.Proofs.Settings
import Tessera.Proofs.Shuffling
/-!
# Walks side by side are walks one number at a time

Shufflers that are asked in any order, with generators of their own or with one in common, do on every list of calls what
they do when each stretch is asked for one number at a time (`Walks.after_singly`, `Walks.handed_singly`). The numbers since
a restart are always the part of the order before the cursor (`Shuffler.Follows`), so no number comes twice, and without a
restart that is asked for the passes are permutations, laid end to end (`Walks.calls_agree`).
-/

namespace Tessera

/-- The orders of one size that a source gives are permutations. -/
def OrderSource.Permutes (γ : Type) [OrderSource γ] (n : Nat) : Prop :=
  ∀ g : γ, (OrderSource.order n g).1.toList.Perm (List.range n)

/-- The numbers of an answer. -/
def Drawn.values : Drawn → List Nat
  | .nothing => []
  | .one n => [n]
  | .many ns => ns

/-- How many numbers a step asks for, which are none when the count is negative. -/
def WalkStep.asked : WalkStep → Nat
  | .next => 1
  | .restart => 0
  | .draws count | .take count => (count.integer.toOption.getD 0).toNat

/-! ## One shuffler -/

namespace Shuffler

variable {γ : Type} [OrderSource γ] {s : Shuffler} (g : γ)

/-- The numbers handed out in the pass so far. -/
def current (s : Shuffler) : List Nat := s.order.toList.take s.cursor

/-- A shuffler on its way, after passes with the numbers of `past`. -/
structure Follows (s : Shuffler) (past : List (List Nat)) : Prop where
  order_perm : s.order.toList.Perm (List.range s.size)
  cursor_le : s.cursor ≤ s.size
  passes_eq : s.passes = past.length

/-- The passes before the current one are full, and it has begun if there are any. -/
structure Unbroken (s : Shuffler) (past : List (List Nat)) : Prop where
  full : ∀ ns ∈ past, ns.Perm (List.range s.size)
  begun : past ≠ [] → 0 < s.cursor

theorem Follows.length_order {past : List (List Nat)} (h : s.Follows past) : s.order.toList.length = s.size := by
  rw [h.order_perm.length_eq, List.length_range]

theorem Follows.length_current {past : List (List Nat)} (h : s.Follows past) : s.current.length = s.cursor := by
  rw [current, List.length_take, h.length_order, Nat.min_eq_left h.cursor_le]

theorem Follows.current_nodup {past : List (List Nat)} (h : s.Follows past) : s.current.Nodup :=
  (h.order_perm.nodup_iff.2 List.nodup_range).sublist (List.take_sublist _ _)

theorem Follows.current_perm {past : List (List Nat)} (h : s.Follows past) (hc : s.size ≤ s.cursor) :
    s.current.Perm (List.range s.size) := by
  rw [current, List.take_of_length_le (by rw [h.length_order]; exact hc)]
  exact h.order_perm

theorem start_follows {n : Nat} (hn : OrderSource.Permutes γ n) : (start n g).1.Follows [] :=
  ⟨hn g, Nat.zero_le _, rfl⟩

theorem ofValue_starts {size : Value} {source : Result γ} {p : Shuffler × γ} (h : ofValue size source = .ok p) :
    ∃ (n : Nat) (g : γ), p = start n g := by
  obtain ⟨x, -, hx⟩ := bind_eq_ok.1 h
  split at hx
  · cases hx
  · obtain ⟨n, -, hn⟩ := bind_eq_ok.1 hx
    cases source with
    | error e => cases hn
    | ok g => exact ⟨n.toNat, g, (Except.ok.inj hn).symm⟩

theorem Follows.restart {past : List (List Nat)} (h : s.Follows past) (hn : OrderSource.Permutes γ s.size) :
    (s.restart g).1.Follows (past ++ [s.current]) where
  order_perm := hn g
  cursor_le := Nat.zero_le _
  passes_eq := by
    rw [List.length_append, ← h.passes_eq]
    rfl

theorem current_restart : (s.restart g).1.current = [] := List.take_zero

theorem restart_passes_ne : (s.restart g).1.passes ≠ s.passes := Nat.succ_ne_self s.passes

theorem next_of_lt (h : s.cursor < s.size) : s.next g = (s.order.getD s.cursor 0, { s with cursor := s.cursor + 1 }, g) := by
  unfold next
  rw [ready_of_lt g h]

/-- A number from within a pass comes behind those of the pass. -/
theorem Follows.next_within {past : List (List Nat)} (h : s.Follows past) (hlt : s.cursor < s.size) :
    (s.next g).2.1.Follows past ∧ (s.next g).2.1.current = s.current ++ [(s.next g).1] ∧
      (s.next g).2.1.passes = s.passes := by
  have hlen : s.cursor < s.order.toList.length := by rw [h.length_order]; exact hlt
  rw [next_of_lt g hlt]
  refine ⟨⟨h.order_perm, hlt, h.passes_eq⟩, ?_, rfl⟩
  change s.order.toList.take (s.cursor + 1) = s.order.toList.take s.cursor ++ [s.order.getD s.cursor 0]
  rw [List.take_add_one, List.getElem?_eq_getElem hlen, Array.getD_eq_getD_getElem?, ← Array.getElem?_toList,
    List.getElem?_eq_getElem hlen]
  rfl

/-- A number from behind a pass is the first of the next pass. -/
theorem next_over (hpos : 0 < s.size) (h : s.size ≤ s.cursor) : s.next g = (s.restart g).1.next (s.restart g).2 := by
  have hready : s.ready g = s.restart g := by simp [ready, h]
  have hstart : (s.restart g).1.ready (s.restart g).2 = s.restart g := ready_of_lt _ hpos
  unfold next
  rw [hready, hstart]

/-- One call to a shuffler that hands out `ns`: it stays in its pass or starts a new one, whose first numbers are `ns`. When
no restart is `asked` for, a new pass starts only behind a full one. -/
structure Goes (s : Shuffler) (past : List (List Nat)) (ns : List Nat) (asked : Prop) (t : Shuffler)
    (past' : List (List Nat)) : Prop where
  follows : t.Follows past'
  size_eq : t.size = s.size
  handed : past'.flatten ++ t.current = past.flatten ++ s.current ++ ns
  recent : t.current = if t.passes = s.passes then s.current ++ ns else ns
  unbroken : ¬ asked → s.Unbroken past → t.Unbroken past'

theorem Follows.goes_nowhere {past : List (List Nat)} (h : s.Follows past) (asked : Prop) : s.Goes past [] asked s past where
  follows := h
  size_eq := rfl
  handed := by simp
  recent := by simp
  unbroken _ hs := hs

theorem Follows.goes_restart {past : List (List Nat)} (h : s.Follows past) (hn : OrderSource.Permutes γ s.size)
    {asked : Prop} (hasked : asked) : s.Goes past [] asked (s.restart g).1 (past ++ [s.current]) where
  follows := h.restart g hn
  size_eq := rfl
  handed := by simp [current_restart]
  recent := by rw [current_restart, if_neg (restart_passes_ne g)]
  unbroken hnot := absurd hasked hnot

theorem Follows.goes_next {past : List (List Nat)} (h : s.Follows past) (hpos : 0 < s.size)
    (hn : OrderSource.Permutes γ s.size) (asked : Prop) :
    ∃ past', s.Goes past [(s.next g).1] asked (s.next g).2.1 past' := by
  by_cases hlt : s.cursor < s.size
  · obtain ⟨hfollows, hcurrent, hpasses⟩ := h.next_within g hlt
    refine ⟨past, hfollows, ?_, ?_, ?_, fun _ hs => ⟨?_, ?_⟩⟩
    · rw [next_of_lt g hlt]
    · rw [hcurrent, List.append_assoc]
    · rw [if_pos hpasses, hcurrent]
    · rw [next_of_lt g hlt]
      exact hs.full
    · rw [next_of_lt g hlt]
      exact fun _ => Nat.succ_pos _
  · -- The pass is over, so the number is the first of a new one.
    have hle := Nat.le_of_not_lt hlt
    have hzero : (s.restart g).1.cursor < (s.restart g).1.size := hpos
    obtain ⟨hfollows, hcurrent, hpasses⟩ := (h.restart g hn).next_within (s.restart g).2 hzero
    rw [next_over g hpos hle]
    rw [current_restart, List.nil_append] at hcurrent
    refine ⟨past ++ [s.current], hfollows, ?_, ?_, ?_, fun _ hs => ⟨?_, ?_⟩⟩
    · rw [next_of_lt _ hzero]
      rfl
    · rw [hcurrent, List.flatten_concat]
    · rw [hcurrent, hpasses, if_neg (restart_passes_ne g)]
    · rw [next_of_lt _ hzero]
      intro ns hns
      rcases List.mem_append.1 hns with hns | hns
      · exact hs.full ns hns
      · rw [List.mem_singleton.1 hns]
        exact h.current_perm hle
    · rw [next_of_lt _ hzero]
      exact fun _ => Nat.succ_pos _

theorem drawsGiven_eq_ok (hpos : 0 < s.size) {count : Value} {r : List Nat × Shuffler × γ}
    (h : s.drawsGiven g count = .ok r) : r = s.draws g (WalkStep.draws count).asked := by
  have hsize : ∀ n, ¬ (0 < n ∧ s.size = 0) := fun n hn => hpos.ne' hn.2
  cases count with
  | int n =>
    have hn : s.drawsGiven g (.int n) = .ok (s.draws g n.toNat) := if_neg (hsize _)
    exact Except.ok.inj (h.symm.trans hn)
  | bool b =>
    have hb : s.drawsGiven g (.bool b) = .ok (s.draws g (if b then 1 else 0)) := if_neg (hsize _)
    rw [Except.ok.inj (h.symm.trans hb)]
    cases b <;> rfl
  | _ => cases h

theorem takeGiven_eq_ok (hpos : 0 < s.size) {count : Value} {r : List Nat × Shuffler × γ}
    (h : s.takeGiven g count = .ok r) : r = s.draws g (WalkStep.take count).asked := by
  obtain ⟨n, hcount, hrest⟩ := bind_eq_ok.1 h
  obtain ⟨_, -, hn⟩ := bind_eq_ok.1 hrest
  have hasked : (WalkStep.take count).asked = n.toNat := by simp [WalkStep.asked, hcount, Except.toOption]
  rw [hasked, ← take_eq_draws s g hpos]
  exact (Except.ok.inj hn).symm

theorem step_next (hpos : 0 < s.size) :
    s.step g .next = .ok (.one (s.next g).1, (s.next g).2.1, (s.next g).2.2) := by
  simp only [step, nextChecked, if_neg hpos.ne']
  rfl

/-- **A step is a restart or draws.** What a step answers and leaves is a new pass, or as many draws as it asks for. -/
theorem step_cases (hpos : 0 < s.size) {x : WalkStep} {v : Drawn} {t : Shuffler} {g' : γ}
    (h : s.step g x = .ok (v, t, g')) :
    (x = .restart ∧ v.values = [] ∧ (t, g') = s.restart g) ∨ (x ≠ .restart ∧ (v.values, t, g') = s.draws g x.asked) := by
  cases x with
  | restart =>
    cases h
    exact .inl ⟨rfl, rfl, rfl⟩
  | next =>
    cases (step_next g hpos).symm.trans h
    exact .inr ⟨WalkStep.noConfusion, rfl⟩
  | draws count =>
    obtain ⟨r, hgiven, hv⟩ := bind_eq_ok.1 h
    cases hv
    exact .inr ⟨WalkStep.noConfusion, drawsGiven_eq_ok g hpos hgiven⟩
  | take count =>
    obtain ⟨r, hgiven, hv⟩ := bind_eq_ok.1 h
    cases hv
    exact .inr ⟨WalkStep.noConfusion, takeGiven_eq_ok g hpos hgiven⟩

end Shuffler

/-! ## Several shufflers -/

namespace Walks

section Places

variable {γ : Type} {w : Walks γ} {i j : Nat} {s t : Shuffler} {g g' : γ}

/-- The shuffler at a place. -/
def shuffler? (w : Walks γ) (i : Nat) : Option Shuffler := w.walks[i]?.map Prod.fst

/-- The sizes of the shufflers. -/
def sizes (w : Walks γ) : List Nat := w.walks.map fun p => p.1.size

theorem at?_eq_some_iff :
    w.at? i = some (s, g) ↔ ∃ own, w.walks[i]? = some (s, own) ∧ (if w.shared then w.common else own) = g := by
  simp [at?, Option.map_eq_some_iff]

theorem shuffler?_of_at? (h : w.at? i = some (s, g)) : w.shuffler? i = some s := by
  obtain ⟨own, hwalk, -⟩ := at?_eq_some_iff.1 h
  simp [shuffler?, hwalk]

theorem at?_put (h : w.at? i = some (s, g)) : (w.put i t g').at? i = some (t, g') := by
  obtain ⟨own, hwalk, -⟩ := at?_eq_some_iff.1 h
  have hlt := (List.getElem?_eq_some_iff.1 hwalk).1
  by_cases hs : w.shared
  · simp [put, at?, hs, hwalk]
  · simp [put, at?, hs, hlt]

theorem put_put (s t : Shuffler) (g g' : γ) : (w.put i s g).put i t g' = w.put i t g' := by
  by_cases hs : w.shared
  · simp [put, hs, List.modify_modify_eq, Function.comp_def]
  · simp [put, hs]

theorem put_at (h : w.at? i = some (s, g)) : w.put i s g = w := by
  obtain ⟨own, hwalk, hg⟩ := at?_eq_some_iff.1 h
  have hset : w.walks.set i (s, own) = w.walks := by
    apply List.ext_getElem?
    intro k
    by_cases hk : i = k
    · subst hk
      rw [List.getElem?_set_self (List.getElem?_eq_some_iff.1 hwalk).1, hwalk]
    · rw [List.getElem?_set_ne hk]
  by_cases hs : w.shared
  · have hmodify : w.walks.modify i (fun p => (s, p.2)) = w.walks := by
      rw [List.modify_eq_set_getElem?, hwalk]
      exact hset
    rw [if_pos hs] at hg
    rw [put, if_pos hs, hmodify, ← hg]
  · rw [if_neg hs] at hg
    rw [put, if_neg hs, ← hg, hset]

theorem shuffler?_put_of_ne (h : i ≠ j) : (w.put i s g).shuffler? j = w.shuffler? j := by
  unfold put shuffler?
  split <;> simp [h]

theorem sizes_getElem? : w.sizes[i]? = (w.shuffler? i).map Shuffler.size := by
  simp [sizes, shuffler?, Function.comp_def]

theorem sizes_put (h : w.at? i = some (s, g)) (hsize : t.size = s.size) : (w.put i t g').sizes = w.sizes := by
  apply List.ext_getElem?
  intro k
  rw [sizes_getElem?, sizes_getElem?]
  by_cases hk : i = k
  · subst hk
    rw [shuffler?_of_at? (at?_put h), shuffler?_of_at? h, Option.map_some, Option.map_some, hsize]
  · rw [shuffler?_put_of_ne hk]

theorem pos_of_at? (hw : ∀ n ∈ w.sizes, 0 < n) (h : w.at? i = some (s, g)) : 0 < s.size := by
  apply hw
  apply List.mem_of_getElem?
  rw [sizes_getElem?, shuffler?_of_at? h]
  rfl

theorem place_eq_of_sizes {w w' : Walks γ} (h : w'.sizes = w.sizes) (which : Value) : w'.place which = w.place which := by
  have hlen : w'.walks.length = w.walks.length := by simpa [sizes] using congrArg List.length h
  cases which <;> simp [place, hlen]

end Places

variable {γ : Type} [OrderSource γ] (w : Walks γ)

/-- The walks after a call. One that is refused changes nothing. -/
def call (c : Value × WalkStep) : Walks γ := (w.step c.1 c.2).toOption.elim w fun r => r.2.2

/-- What the shuffler at place `i` hands out in a call. -/
def given (i : Nat) (c : Value × WalkStep) : List Nat :=
  if (w.place c.1).toOption = some i then (w.step c.1 c.2).toOption.elim [] fun r => r.1.values else []

/-- The walks after calls. -/
def after (w : Walks γ) (calls : List (Value × WalkStep)) : Walks γ := calls.foldl call w

/-- What the shuffler at place `i` hands out in calls. -/
def handed (i : Nat) : Walks γ → List (Value × WalkStep) → List Nat
  | _, [] => []
  | w, c :: calls => w.given i c ++ handed i (w.call c) calls

/-- The calls that ask for one number at a time what a call asks for. A call that is refused asks for nothing. -/
def singles (c : Value × WalkStep) : List (Value × WalkStep) :=
  match c.2 with
  | .restart => [c]
  | x => if (w.step c.1 x).toOption.isSome then List.replicate x.asked (c.1, .next) else []

/-- The calls that ask for one number at a time what calls ask for. -/
def singly : Walks γ → List (Value × WalkStep) → List (Value × WalkStep)
  | _, [] => []
  | w, c :: calls => w.singles c ++ singly (w.call c) calls

variable {w}

/-- What a call does to walks: nothing, a restart, or as many single draws as it asks for. -/
inductive Answers (w : Walks γ) (c : Value × WalkStep) : Prop
  | refused (hstep : (w.step c.1 c.2).toOption = none) (hcall : w.call c = w) (hgiven : ∀ i, w.given i c = [])
  | restarted {k : Nat} {s : Shuffler} {g : γ} (hplace : w.place c.1 = .ok k) (hat : w.at? k = some (s, g))
      (hstep : c.2 = .restart) (hcall : w.call c = w.put k (s.restart g).1 (s.restart g).2)
      (hgiven : ∀ i, w.given i c = [])
  | drew {k : Nat} {s : Shuffler} {g : γ} (hplace : w.place c.1 = .ok k) (hat : w.at? k = some (s, g))
      (hstep : c.2 ≠ .restart) (hsome : (w.step c.1 c.2).toOption.isSome)
      (hcall : w.call c = w.put k (s.draws g c.2.asked).2.1 (s.draws g c.2.asked).2.2)
      (hgiven : ∀ i, w.given i c = if k = i then (s.draws g c.2.asked).1 else [])

theorem step_of_at? {which : Value} {k : Nat} {s : Shuffler} {g : γ} (hplace : w.place which = .ok k)
    (hat : w.at? k = some (s, g)) (x : WalkStep) :
    w.step which x = (s.step g x).map fun r => (r.1, r.2.1, w.put k r.2.1 r.2.2) := by
  simp only [step, hplace, hat, bind, Except.bind, pure, Except.pure, Except.map]

theorem given_of_place {c : Value × WalkStep} {k : Nat} (hplace : w.place c.1 = .ok k) (i : Nat) :
    w.given i c = if k = i then (w.step c.1 c.2).toOption.elim [] fun r => r.1.values else [] := by
  have hsome : (w.place c.1).toOption = some k := by
    rw [hplace]
    rfl
  simp [given, hsome]

/-- **Inversion of calls.** There is nothing else that a call can do. -/
theorem answers (hw : ∀ n ∈ w.sizes, 0 < n) (c : Value × WalkStep) : w.Answers c := by
  have hrefused (h : (w.step c.1 c.2).toOption = none) : w.Answers c :=
    .refused h (by simp [call, h]) (fun i => by simp [given, h])
  cases hplace : w.place c.1 with
  | error e =>
    apply hrefused
    simp [step, hplace, bind, Except.bind, Except.toOption]
  | ok k =>
    cases hat : w.at? k with
    | none =>
      apply hrefused
      simp [step, hplace, hat, bind, Except.bind, refuse, Except.toOption]
    | some p =>
      obtain ⟨s, g⟩ := p
      have hstep := step_of_at? hplace hat c.2
      cases hr : s.step g c.2 with
      | error e =>
        apply hrefused
        simp [hstep, hr, Except.map, Except.toOption]
      | ok r =>
        obtain ⟨v, t, g'⟩ := r
        have hok : (w.step c.1 c.2).toOption = some (v, t, w.put k t g') := by simp [hstep, hr, Except.map, Except.toOption]
        have hcall : w.call c = w.put k t g' := by simp [call, hok]
        have hgiven (i : Nat) : w.given i c = if k = i then v.values else [] := by
          rw [given_of_place hplace, hok]
          rfl
        rcases Shuffler.step_cases g (pos_of_at? hw hat) hr with ⟨hx, hv, ht⟩ | ⟨hx, ht⟩
        · refine .restarted hplace hat hx ?_ (fun i => ?_)
          · rw [hcall, ← ht]
          · rw [hgiven, hv, ite_self]
        · refine .drew hplace hat hx (by simp [hok]) ?_ (fun i => ?_)
          · rw [hcall, ← ht]
          · rw [hgiven, ← ht]

theorem sizes_call (hw : ∀ n ∈ w.sizes, 0 < n) (c : Value × WalkStep) : (w.call c).sizes = w.sizes := by
  cases answers hw c with
  | refused _ hcall _ => rw [hcall]
  | restarted _ hat _ hcall _ => rw [hcall, sizes_put hat (Shuffler.restart_size _ _)]
  | drew _ hat _ _ hcall _ => rw [hcall, sizes_put hat (Shuffler.draws_size _ _ _)]

theorem sizes_after (hw : ∀ n ∈ w.sizes, 0 < n) (calls : List (Value × WalkStep)) : (w.after calls).sizes = w.sizes := by
  induction calls generalizing w with
  | nil => rfl
  | cons c calls ih =>
    have hsizes := sizes_call hw c
    exact (ih (by rw [hsizes]; exact hw)).trans hsizes

/-! ### One number at a time -/

@[simp] theorem after_nil : w.after [] = w := rfl

@[simp] theorem after_cons (c : Value × WalkStep) (calls : List (Value × WalkStep)) :
    w.after (c :: calls) = (w.call c).after calls := rfl

theorem after_append (calls more : List (Value × WalkStep)) : w.after (calls ++ more) = (w.after calls).after more :=
  List.foldl_append

theorem handed_append (i : Nat) (calls more : List (Value × WalkStep)) :
    w.handed i (calls ++ more) = w.handed i calls ++ (w.after calls).handed i more := by
  induction calls generalizing w with
  | nil => rfl
  | cons c calls ih => simp only [List.cons_append, handed, ih, after_cons, List.append_assoc]

theorem call_next {which : Value} {k : Nat} {s : Shuffler} {g : γ} (hplace : w.place which = .ok k)
    (hat : w.at? k = some (s, g)) (hpos : 0 < s.size) :
    w.call (which, .next) = w.put k (s.next g).2.1 (s.next g).2.2 ∧
      ∀ i, w.given i (which, .next) = if k = i then [(s.next g).1] else [] := by
  have hok : (w.step which .next).toOption =
      some (.one (s.next g).1, (s.next g).2.1, w.put k (s.next g).2.1 (s.next g).2.2) := by
    rw [step_of_at? hplace hat, Shuffler.step_next g hpos]
    rfl
  refine ⟨by simp [call, hok], fun i => ?_⟩
  rw [given_of_place hplace, hok]
  rfl

/-- Draws of one shuffler, asked for one at a time. -/
theorem run_nexts {which : Value} {k : Nat} {s : Shuffler} {g : γ} (hplace : w.place which = .ok k)
    (hat : w.at? k = some (s, g)) (hpos : 0 < s.size) (n : Nat) :
    w.after (List.replicate n (which, .next)) = w.put k (s.draws g n).2.1 (s.draws g n).2.2 ∧
      ∀ i, w.handed i (List.replicate n (which, .next)) = if k = i then (s.draws g n).1 else [] := by
  induction n generalizing w s g with
  | zero => exact ⟨(put_at hat).symm, fun i => by simp [handed, Shuffler.draws]⟩
  | succ n ih =>
    obtain ⟨hcall, hgiven⟩ := call_next hplace hat hpos
    have hsize : (s.next g).2.1.size = s.size := by simp [Shuffler.next]
    have hplace' : (w.put k (s.next g).2.1 (s.next g).2.2).place which = .ok k := by
      rw [place_eq_of_sizes (sizes_put hat hsize), hplace]
    obtain ⟨hafter, hhanded⟩ := ih hplace' (at?_put hat) (by rw [hsize]; exact hpos)
    refine ⟨?_, fun i => ?_⟩
    · rw [List.replicate_succ, after_cons, hcall, hafter, put_put]
      rfl
    · rw [List.replicate_succ, handed, hcall, hgiven, hhanded, Shuffler.draws_succ]
      split <;> rfl

theorem singles_of_restart {c : Value × WalkStep} (hx : c.2 = .restart) : w.singles c = [c] := by
  unfold singles
  rw [hx]

theorem singles_of_ne {c : Value × WalkStep} (hx : c.2 ≠ .restart) :
    w.singles c = if (w.step c.1 c.2).toOption.isSome then List.replicate c.2.asked (c.1, .next) else [] := by
  unfold singles
  split
  · contradiction
  · rfl

/-- **A call is its single calls.** They leave the same walks and hand out the same numbers. -/
theorem run_singles (hw : ∀ n ∈ w.sizes, 0 < n) (c : Value × WalkStep) :
    w.after (w.singles c) = w.call c ∧ ∀ i, w.handed i (w.singles c) = w.given i c := by
  by_cases hx : c.2 = .restart
  · rw [singles_of_restart hx]
    exact ⟨rfl, fun i => List.append_nil _⟩
  rw [singles_of_ne hx]
  cases answers hw c with
  | refused hstep hcall hgiven =>
    rw [if_neg (by simp [hstep]), hcall]
    exact ⟨rfl, fun i => (hgiven i).symm⟩
  | restarted _ _ hstep _ _ => exact absurd hstep hx
  | drew hplace hat _ hsome hcall hgiven =>
    obtain ⟨hafter, hhanded⟩ := run_nexts hplace hat (pos_of_at? hw hat) c.2.asked
    rw [if_pos hsome, hcall, hafter]
    exact ⟨rfl, fun i => (hhanded i).trans (hgiven i).symm⟩

theorem after_singly (hw : ∀ n ∈ w.sizes, 0 < n) (calls : List (Value × WalkStep)) :
    w.after (w.singly calls) = w.after calls := by
  induction calls generalizing w with
  | nil => rfl
  | cons c calls ih =>
    rw [singly, after_append, (run_singles hw c).1, ih (by rw [sizes_call hw]; exact hw), after_cons]

theorem handed_singly (hw : ∀ n ∈ w.sizes, 0 < n) (i : Nat) (calls : List (Value × WalkStep)) :
    w.handed i (w.singly calls) = w.handed i calls := by
  induction calls generalizing w with
  | nil => rfl
  | cons c calls ih =>
    rw [singly, handed_append, (run_singles hw c).1, (run_singles hw c).2, ih (by rw [sizes_call hw]; exact hw), handed]

/-! ### Since the last restart -/

/-- What the shuffler at place `i` has handed out since its last restart, after `seen` and then calls for single numbers. A
restart, whether it is asked for or not, shows as a change of the passes. -/
def recent (i : Nat) : Walks γ → List Nat → List (Value × WalkStep) → List Nat
  | _, seen, [] => seen
  | w, seen, c :: calls =>
    recent i (w.call c) (if ((w.call c).shuffler? i).map Shuffler.passes = (w.shuffler? i).map Shuffler.passes
      then seen ++ w.given i c else w.given i c) calls

/-- What the shuffler at place `i` has handed out since its last restart. -/
def sinceRestart (w : Walks γ) (i : Nat) (calls : List (Value × WalkStep)) : List Nat := w.recent i [] (w.singly calls)

/-- Every shuffler is at its start. -/
def Begun (w : Walks γ) : Prop := ∀ p ∈ w.walks, ∃ (n : Nat) (g : γ), 0 < n ∧ p.1 = (Shuffler.start n g).1

/-- Adding shufflers leaves every one at its start. -/
theorem foldlM_add_starts {seed : Value} {ns : List Value} {v w : Walks Generator} (h : ns.foldlM (add seed) v = .ok w)
    (hv : ∀ p ∈ v.walks, ∃ (n : Nat) (g : Generator), p = Shuffler.start n g) :
    ∀ p ∈ w.walks, ∃ (n : Nat) (g : Generator), p = Shuffler.start n g := by
  induction ns generalizing v with
  | nil =>
    cases h
    exact hv
  | cons size ns ih =>
    obtain ⟨u, hu, hrest⟩ := bind_eq_ok.1 h
    obtain ⟨p, hp, hput⟩ := bind_eq_ok.1 hu
    cases hput
    refine ih hrest (List.forall_mem_append.2 ⟨hv, ?_⟩)
    rw [List.forall_mem_singleton]
    exact Shuffler.ofValue_starts hp

theorem start_begun {shared : Bool} {seed : Value} {ns : List Value} {w : Walks Generator} (h : start shared seed ns = .ok w)
    (hpos : ∀ n ∈ w.sizes, 0 < n) : w.Begun := by
  intro p hp
  obtain ⟨n, g, rfl⟩ := foldlM_add_starts h (List.forall_mem_nil _) p hp
  exact ⟨n, g, hpos n (List.mem_map.2 ⟨_, hp, rfl⟩), rfl⟩

theorem Begun.pos (hw : w.Begun) : ∀ n ∈ w.sizes, 0 < n := by
  intro n hn
  obtain ⟨p, hp, rfl⟩ := List.mem_map.1 hn
  obtain ⟨m, g, hm, hstart⟩ := hw p hp
  rw [hstart]
  exact hm

/-- **One call.** Whichever shuffler a call for a single number is made to, each one stays as it is or goes one step. -/
theorem call_goes (hw : ∀ n ∈ w.sizes, 0 < n) {c : Value × WalkStep} (hc : c.2 = .next ∨ c.2 = .restart) {i : Nat}
    {s : Shuffler} {past : List (List Nat)} (hs : w.shuffler? i = some s) (h : s.Follows past)
    (hn : OrderSource.Permutes γ s.size) :
    ∃ t past', (w.call c).shuffler? i = some t ∧
      s.Goes past (w.given i c) (w.place c.1 = .ok i ∧ c.2 = .restart) t past' := by
  cases answers hw c with
  | refused _ hcall hgiven =>
    rw [hcall, hgiven]
    exact ⟨s, past, hs, h.goes_nowhere _⟩
  | @restarted k s' g hplace hat hstep hcall hgiven =>
    rw [hcall, hgiven]
    by_cases hk : k = i
    · subst hk
      obtain rfl := Option.some.inj ((shuffler?_of_at? hat).symm.trans hs)
      exact ⟨_, _, shuffler?_of_at? (at?_put hat), h.goes_restart g hn ⟨hplace, hstep⟩⟩
    · exact ⟨s, past, by rw [shuffler?_put_of_ne hk, hs], h.goes_nowhere _⟩
  | @drew k s' g hplace hat hstep _ hcall hgiven =>
    have hasked : c.2.asked = 1 := by
      rw [hc.resolve_right hstep]
      rfl
    rw [hcall, hgiven, hasked]
    by_cases hk : k = i
    · subst hk
      obtain rfl := Option.some.inj ((shuffler?_of_at? hat).symm.trans hs)
      obtain ⟨past', hgoes⟩ := h.goes_next g (pos_of_at? hw hat) hn (w.place c.1 = .ok k ∧ c.2 = .restart)
      rw [if_pos rfl]
      exact ⟨_, past', shuffler?_of_at? (at?_put hat), hgoes⟩
    · rw [if_neg hk]
      exact ⟨s, past, by rw [shuffler?_put_of_ne hk, hs], h.goes_nowhere _⟩

/-- **Many calls.** Along calls for single numbers, the numbers since the last restart stay the current pass, and all numbers
are the passes end to end. -/
theorem run_follows (hw : ∀ n ∈ w.sizes, 0 < n) {calls : List (Value × WalkStep)}
    (hcalls : ∀ c ∈ calls, c.2 = .next ∨ c.2 = .restart) {i : Nat} {s : Shuffler} {past : List (List Nat)}
    (hs : w.shuffler? i = some s) (h : s.Follows past) (hn : OrderSource.Permutes γ s.size) :
    ∃ t past', (w.after calls).shuffler? i = some t ∧ t.Follows past' ∧ t.size = s.size ∧
      past'.flatten ++ t.current = past.flatten ++ s.current ++ w.handed i calls ∧
      w.recent i s.current calls = t.current ∧
      ((∀ c ∈ calls, ¬ (w.place c.1 = .ok i ∧ c.2 = .restart)) → s.Unbroken past → t.Unbroken past') := by
  induction calls generalizing w s past with
  | nil => exact ⟨s, past, hs, h, rfl, by simp [handed], rfl, fun _ hunbroken => hunbroken⟩
  | cons c calls ih =>
    obtain ⟨u, mid, hu, hgoes⟩ := call_goes hw (hcalls c (by simp)) hs h hn
    have hsizes := sizes_call hw c
    obtain ⟨t, past', ht, hfollows, hsize, hhanded, hrecent, hunbroken⟩ :=
      ih (by rw [hsizes]; exact hw) (fun d hd => hcalls d (List.mem_cons_of_mem c hd)) hu hgoes.follows
        (by rw [hgoes.size_eq]; exact hn)
    refine ⟨t, past', ht, hfollows, hsize.trans hgoes.size_eq, ?_, ?_, fun hnone hs' => ?_⟩
    · rw [hhanded, hgoes.handed, handed, List.append_assoc _ (w.given i c)]
    · rw [recent, hu, hs, Option.map_some, Option.map_some]
      simp only [Option.some.injEq]
      rw [← hgoes.recent, hrecent]
    · refine hunbroken (fun d hd => ?_) (hgoes.unbroken (hnone c (by simp)) hs')
      rw [place_eq_of_sizes hsizes]
      exact hnone d (List.mem_cons_of_mem c hd)

theorem mem_singles {c d : Value × WalkStep} (h : d ∈ w.singles c) : d.2 = .next ∨ (d.2 = .restart ∧ d = c) := by
  by_cases hx : c.2 = .restart
  · rw [singles_of_restart hx, List.mem_singleton] at h
    subst h
    exact .inr ⟨hx, rfl⟩
  · rw [singles_of_ne hx] at h
    split at h
    · rw [List.eq_of_mem_replicate h]
      exact .inl rfl
    · cases h

theorem mem_singly {calls : List (Value × WalkStep)} {d : Value × WalkStep} (h : d ∈ w.singly calls) :
    d.2 = .next ∨ (d.2 = .restart ∧ d ∈ calls) := by
  induction calls generalizing w with
  | nil => cases h
  | cons c calls ih =>
    rcases List.mem_append.1 h with h | h
    · exact (mem_singles h).imp_right fun hd => ⟨hd.1, by rw [hd.2]; exact List.mem_cons_self⟩
    · exact (ih h).imp_right fun hd => ⟨hd.1, List.mem_cons_of_mem c hd.2⟩

/-! ### Passes end to end -/

/-- In passes end to end every window that starts with a pass is one. -/
theorem window_perm {n : Nat} {past : List (List Nat)} {rest : List Nat} (hpast : ∀ ns ∈ past, ns.Perm (List.range n))
    (hrest : n ≤ rest.length → rest.Perm (List.range n)) (j : Nat) (hj : (j + 1) * n ≤ (past.flatten ++ rest).length) :
    (((past.flatten ++ rest).drop (j * n)).take n).Perm (List.range n) := by
  induction past generalizing j with
  | nil =>
    rw [List.flatten_nil, List.nil_append] at hj ⊢
    have hle : n ≤ rest.length := (Nat.le_mul_of_pos_left n (Nat.succ_pos j)).trans hj
    have hlen : rest.length = n := by rw [(hrest hle).length_eq, List.length_range]
    have hzero : j * n = 0 := by rw [hlen, Nat.succ_mul] at hj; omega
    rw [hzero, List.drop_zero, List.take_of_length_le hlen.le]
    exact hrest hle
  | cons ns past ih =>
    have hlen : ns.length = n := by rw [(hpast ns (by simp)).length_eq, List.length_range]
    rw [List.flatten_cons, List.append_assoc] at hj ⊢
    cases j with
    | zero =>
      rw [Nat.zero_mul, List.drop_zero, List.take_left' hlen]
      exact hpast ns (by simp)
    | succ j =>
      have hdrop : (ns ++ (past.flatten ++ rest)).drop ((j + 1) * n) = (past.flatten ++ rest).drop (j * n) := by
        rw [Nat.succ_mul, Nat.add_comm, ← List.drop_drop, List.drop_left' hlen]
      rw [hdrop]
      refine ih (fun ms hms => hpast ms (List.mem_cons_of_mem ns hms)) j ?_
      rw [List.length_append, hlen, Nat.succ_mul] at hj
      omega

theorem length_flatten_passes {n : Nat} {past : List (List Nat)} (hpast : ∀ ns ∈ past, ns.Perm (List.range n)) :
    past.flatten.length = past.length * n := by
  induction past with
  | nil => simp
  | cons ns past ih =>
    rw [List.flatten_cons, List.length_append, ih fun ms hms => hpast ms (List.mem_cons_of_mem ns hms),
      (hpast ns (by simp)).length_eq, List.length_range, List.length_cons, Nat.succ_mul, Nat.add_comm]

/-- A pass that has begun is the last that is needed for the numbers handed out. -/
theorem passes_eq_ceil {passes cursor n : Nat} (hpos : 0 < cursor) (hle : cursor ≤ n) :
    (passes : ℤ) = ⌈((passes * n + cursor : Nat) : ℚ) / n⌉ - 1 := by
  have hn : (0 : ℚ) < n := by exact_mod_cast hpos.trans_le hle
  have hpos' : (0 : ℚ) < cursor := by exact_mod_cast hpos
  have hle' : (cursor : ℚ) ≤ n := by exact_mod_cast hle
  have hceil : ⌈((passes * n + cursor : Nat) : ℚ) / n⌉ = (passes : ℤ) + 1 := by
    rw [Int.ceil_eq_iff]
    push_cast
    constructor
    · rw [lt_div_iff₀ hn]
      linarith
    · rw [div_le_iff₀ hn]
      linarith
  omega

theorem Begun.follows (hw : w.Begun) {i : Nat} {s : Shuffler} (hs : w.shuffler? i = some s)
    (hn : OrderSource.Permutes γ s.size) : s.Follows [] ∧ s.current = [] := by
  obtain ⟨p, hp, rfl⟩ := Option.map_eq_some_iff.1 hs
  obtain ⟨m, g, hm, hstart⟩ := hw p (List.mem_of_getElem? hp)
  rw [hstart] at hn ⊢
  exact ⟨Shuffler.start_follows g hn, List.take_zero⟩

/-- Where the shuffler at a place stands after calls, whatever the others were asked in between. -/
theorem Begun.after_follows (hw : w.Begun) (calls : List (Value × WalkStep)) {i : Nat} {t : Shuffler}
    (ht : (w.after calls).shuffler? i = some t) (hn : OrderSource.Permutes γ t.size) :
    ∃ past, t.Follows past ∧ w.sinceRestart i calls = t.current ∧ w.handed i calls = past.flatten ++ t.current ∧
      ((∀ c ∈ calls, w.place c.1 = .ok i → c.2 ≠ .restart) → t.Unbroken past) := by
  obtain ⟨s, hs, hsize⟩ : ∃ s, w.shuffler? i = some s ∧ s.size = t.size := by
    have hsizes : (w.shuffler? i).map Shuffler.size = some t.size := by
      rw [← sizes_getElem?, ← sizes_after hw.pos calls, sizes_getElem?, ht]
      rfl
    exact Option.map_eq_some_iff.1 hsizes
  rw [← hsize] at hn
  obtain ⟨hfollows, hcurrent⟩ := hw.follows hs hn
  have hsingle : ∀ c ∈ w.singly calls, c.2 = .next ∨ c.2 = .restart := fun c hc => (mem_singly hc).imp_right And.left
  obtain ⟨u, past, hu, hfollows', -, hhanded, hrecent, hunbroken⟩ := run_follows hw.pos hsingle hs hfollows hn
  rw [after_singly hw.pos, ht] at hu
  obtain rfl := Option.some.inj hu
  rw [handed_singly hw.pos, hcurrent] at hhanded
  rw [hcurrent] at hrecent
  refine ⟨past, hfollows', hrecent, hhanded.symm, fun hnone => hunbroken (fun c hc hrestart => ?_) ⟨by simp, by simp⟩⟩
  rcases mem_singly hc with hnext | ⟨-, hmem⟩
  · cases hnext.symm.trans hrestart.2
  · exact hnone c hmem hrestart.1 hrestart.2

/-- **Walks.** From its start on, whatever a shuffler and those that share its generator are asked: a stretch is as many
single numbers, with the same numbers, shufflers and generators; stretches add up; the cursor stays in the pass; no number
comes twice between restarts; and without a restart that is asked for, the passes so far are those that the numbers fill, and
every window of them has every number once. -/
theorem calls_agree (w : Walks γ) (hw : w.Begun) (calls : List (Value × WalkStep)) :
    (∀ (s : Shuffler) (g : γ) (count : Int), 0 < s.size →
      s.take g count.toNat = s.draws g (max 0 count).toNat ∧
      s.takeGiven g (.int count) = (Tensor.checkCount count.toNat).map fun _ => s.draws g (max 0 count).toNat) ∧
    (∀ (s : Shuffler) (g : γ) (a b : Nat), 0 < s.size →
      s.take g (a + b) = ((s.take g a).1 ++ ((s.take g a).2.1.take (s.take g a).2.2 b).1,
        ((s.take g a).2.1.take (s.take g a).2.2 b).2)) ∧
    w.after calls = w.after (w.singly calls) ∧ (∀ i, w.handed i calls = w.handed i (w.singly calls)) ∧
    ∀ i s, (w.after calls).shuffler? i = some s → OrderSource.Permutes γ s.size →
      s.cursor + s.remaining = s.size ∧
      (w.sinceRestart i calls).length = s.cursor ∧ (w.sinceRestart i calls).Nodup ∧
      ((∀ c ∈ calls, w.place c.1 = .ok i → c.2 ≠ .restart) →
        (0 < (w.handed i calls).length → (s.passes : ℤ) = ⌈((w.handed i calls).length : ℚ) / s.size⌉ - 1) ∧
        ∀ j, (j + 1) * s.size ≤ (w.handed i calls).length →
          (((w.handed i calls).drop (j * s.size)).take s.size).Perm (List.range s.size)) := by
  have hcount (count : Int) : (max 0 count).toNat = count.toNat := by omega
  refine ⟨fun s g count hpos => ?_, fun s g a b hpos => s.take_add g hpos a b, (after_singly hw.pos calls).symm,
    fun i => (handed_singly hw.pos i calls).symm, fun i s hs hn => ?_⟩
  · rw [hcount]
    refine ⟨s.take_eq_draws g hpos _, ?_⟩
    rw [← s.take_eq_draws g hpos]
    rfl
  · obtain ⟨past, hfollows, hsince, hhanded, hunbroken⟩ := hw.after_follows calls hs hn
    refine ⟨?_, ?_, ?_, fun hnone => ⟨fun hpos => ?_, fun j hj => ?_⟩⟩
    · exact Nat.add_sub_cancel' hfollows.cursor_le
    · rw [hsince, hfollows.length_current]
    · rw [hsince]
      exact hfollows.current_nodup
    · obtain ⟨hfull, hbegun⟩ := hunbroken hnone
      have hlen : (w.handed i calls).length = s.passes * s.size + s.cursor := by
        rw [hhanded, List.length_append, length_flatten_passes hfull, hfollows.length_current, hfollows.passes_eq]
      have hcursor : 0 < s.cursor := by
        by_cases hpast : past = []
        · rw [hlen, hfollows.passes_eq, hpast] at hpos
          simpa using hpos
        · exact hbegun hpast
      rw [hlen]
      exact passes_eq_ceil hcursor hfollows.cursor_le
    · rw [hhanded] at hj ⊢
      refine window_perm (hunbroken hnone).full (fun hle => ?_) j hj
      rw [hfollows.length_current] at hle
      exact hfollows.current_perm hle

/-- Calls to two shufflers, which ask the first for six numbers and restart the second in between. -/
def pairCalls : List (Value × WalkStep) :=
  [(.int 0, .take (.int 4)), (.int 1, .next), (.int (-1), .restart), (.int 1, .take (.int (-2))), (.int 0, .next),
    (.int 0, .draws (.int 1))]

/-- Two shufflers of the sizes 3 and 2 share a generator; the first hands out both its passes whole. -/
theorem calls_agree_pair : ∃ w s, Walks.start true (.int 7) [.int 3, .int 2] = .ok w ∧ w.Begun ∧
    w.after pairCalls = w.after (w.singly pairCalls) ∧ (w.after pairCalls).shuffler? 0 = some s ∧
    (w.handed 0 pairCalls).length = 6 ∧ s.size = 3 ∧ (s.passes : ℤ) = ⌈(6 : ℚ) / 3⌉ - 1 ∧
    (((w.handed 0 pairCalls).drop 3).take 3).Perm (List.range 3) ∧ (w.sinceRestart 0 pairCalls).Nodup := by
  obtain ⟨w, hstart, hlen, hhanded, hsize⟩ : ∃ w, Walks.start true (.int 7) [.int 3, .int 2] = .ok w ∧
      w.sizes = [3, 2] ∧ (w.handed 0 pairCalls).length = 6 ∧
      ((w.after pairCalls).shuffler? 0).map Shuffler.size = some 3 := by
    have hrun : (Walks.start true (.int 7) [.int 3, .int 2]).toOption.map (fun w => (w.sizes,
        (w.handed 0 pairCalls).length, ((w.after pairCalls).shuffler? 0).map Shuffler.size)) = some ([3, 2], 6, some 3) := by
      decide +kernel
    cases hstart : Walks.start true (.int 7) [.int 3, .int 2] with
    | error e => simp [hstart, Except.toOption] at hrun
    | ok w =>
      simp only [hstart, Except.toOption, Option.map_some, Option.some.injEq, Prod.mk.injEq] at hrun
      exact ⟨w, rfl, hrun⟩
  have hw : w.Begun := start_begun hstart (by simp [hlen])
  obtain ⟨s, hs, hsize⟩ := Option.map_eq_some_iff.1 hsize
  obtain ⟨-, -, hafter, -, hwalk⟩ := calls_agree w hw pairCalls
  obtain ⟨-, -, hnodup, hfull⟩ := hwalk 0 s hs (LawfulSource.order_perm s.size)
  have hnone : ∀ c ∈ pairCalls, w.place c.1 = .ok 0 → c.2 ≠ .restart := by
    have hwalks : w.walks.length = 2 := by simpa [sizes] using congrArg List.length hlen
    have hlast : w.place (.int (-1)) = .ok 1 := by
      simp only [place, hwalks]
      rfl
    simp [pairCalls, hlast]
  rw [hhanded, hsize] at hfull
  obtain ⟨hpasses, hwindow⟩ := hfull hnone
  exact ⟨w, s, hstart, hw, hafter, hs, hhanded, hsize, hpasses (by decide), hwindow 1 (by decide), hnodup⟩

end Walks

end Tessera
