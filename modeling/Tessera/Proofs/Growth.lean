import Mathlib
import Tessera.Order.Generator
import Tessera.Proofs.Extension
import Tessera.Proofs.Run
/-!
# Growth

Growing adds a seeded slot to every palette and settles with samples. A settled set that is worse than the seeded one is
undone, so a step of growth ends with at most the error of the seeded set, whatever the samples are
(`Learner.error_growOne_le`). Where seeding does not raise the error, neither does growing, step after step
(`Learner.grow_descends`). Without mixes seeding never raises it, since palettes only gain candidates.
-/

namespace Tessera

/-- The set of a step of growth. -/
def Moment.grown? {α : Type} : Moment α → Option (PaletteSet α)
  | .grown s => some s
  | _ => none

namespace Learner

variable {γ : Type} [OrderSource γ] (pb : Problem Rat) (l : Learner Rat γ) (s : PaletteSet Rat) (rates : List Rat)

/-! ## One step -/

/-- A step of growth ends with the seeded set or with one that has been settled from it and is not worse. -/
theorem growOne_cases :
    ((l.growOne pb s rates).set = seeded pb.tiles s ∧
      ∃ after, (l.growOne pb s rates).moment = some (.rejected (s.slots + 1) after (error pb (seeded pb.tiles s)))) ∨
    ((l.growOne pb s rates).set = (l.run pb (seeded pb.tiles s) rates).1 ∧ (l.growOne pb s rates).moment = none ∧
      error pb (l.run pb (seeded pb.tiles s) rates).1 ≤ error pb (seeded pb.tiles s)) := by
  simp only [growOne, judge]
  split
  · exact .inl ⟨rfl, _, rfl⟩
  · rename_i hle
    exact .inr ⟨rfl, rfl, not_lt.1 hle⟩

theorem error_growOne_le : error pb (l.growOne pb s rates).set ≤ error pb (seeded pb.tiles s) := by
  obtain ⟨hset, -⟩ | ⟨hset, -, hle⟩ := growOne_cases pb l s rates
  · rw [hset]
  · rw [hset]
    exact hle

theorem growOne_shape : (l.growOne pb s rates).set.slots = s.slots + 1 ∧ (l.growOne pb s rates).set.zero = s.zero ∧
    (l.growOne pb s rates).set.size = s.size := by
  have hseeded : (seeded pb.tiles s).slots = s.slots + 1 ∧ (seeded pb.tiles s).zero = s.zero ∧
      (seeded pb.tiles s).size = s.size := ⟨rfl, rfl, s.addSlot_size _ _⟩
  obtain ⟨hset, -⟩ | ⟨hset, -, -⟩ := growOne_cases pb l s rates
  · rw [hset]
    exact hseeded
  · obtain ⟨hzero, hslots, hsize⟩ := run_sameShape pb l (seeded pb.tiles s) rates
    rw [hset, hzero, hslots, hsize]
    exact hseeded

theorem growOne_moment : ((l.growOne pb s rates).moment.toList).filterMap Moment.grown? = [] := by
  obtain ⟨-, after, hmoment⟩ | ⟨-, hmoment, -⟩ := growOne_cases pb l s rates
  · rw [hmoment]
    rfl
  · rw [hmoment]
    rfl

/-! ## The loop -/

/-- Growing is a loop that goes on as long as there are fewer slots than asked for. -/
theorem grow_loop {m : Type → Type} [Monad m] [LawfulMonad m] (tell : Moment Rat → m Unit) (target : Nat) :
    l.grow tell pb s target rates =
      if s.slots < target then do
        (l.growOne pb s rates).moment.elim (pure ()) tell
        tell (.grown (l.growOne pb s rates).set)
        (l.growOne pb s rates).learner.grow tell pb (l.growOne pb s rates).set target rates
      else pure (s, l) := by
  split
  · rename_i hlt
    have hcount : target - s.slots = target - (l.growOne pb s rates).set.slots + 1 := by
      rw [(growOne_shape pb l s rates).1]
      omega
    rw [grow, hcount, growBy, grow]
    cases (l.growOne pb s rates).moment with
    | none => rw [Option.elim_none, pure_bind]
    | some x => rfl
  · rename_i hge
    rw [grow, Nat.sub_eq_zero_of_le (Nat.le_of_not_lt hge), growBy]

/-- One step of growth, told to a listener that keeps everything. -/
theorem growBy_keep_succ (n : Nat) (told : List (Moment Rat)) :
    (growBy Moment.keep pb rates (n + 1) s l).run told =
      (growBy Moment.keep pb rates n (l.growOne pb s rates).set (l.growOne pb s rates).learner).run
        (told ++ ((l.growOne pb s rates).moment.toList ++ [.grown (l.growOne pb s rates).set])) := by
  rw [growBy]
  cases (l.growOne pb s rates).moment with
  | none => rfl
  | some x =>
    change (growBy Moment.keep pb rates n _ _).run (told ++ [x] ++ [_]) = _
    rw [List.append_assoc]
    rfl

/-- Growth to a number of slots as it is told: for every further slot one set, the slots counted up, and no set with a
greater error than those before it. The last one is the result. -/
structure GrowsDown (pb : Problem Rat) (s : PaletteSet Rat) (target : Nat) (t : PaletteSet Rat)
    (told : List (Moment Rat)) : Prop where
  slots : (told.filterMap Moment.grown?).map PaletteSet.slots = List.range' (s.slots + 1) (target - s.slots)
  errors : ((s :: told.filterMap Moment.grown?).map (error pb)).Pairwise (· ≥ ·)
  last : t = (told.filterMap Moment.grown?).getLastD s
  shape : t.slots = max s.slots target ∧ t.zero = s.zero ∧ t.size = s.size

/-- What growing by some slots tells, when seeding does not raise the error on the way. -/
theorem growBy_descends (n : Nat) (told : List (Moment Rat))
    (hseed : ∀ t : PaletteSet Rat, t.zero = s.zero → s.slots ≤ t.slots → t.slots < s.slots + n →
      error pb (seeded pb.tiles t) ≤ error pb t) :
    ∃ t l' more, (growBy Moment.keep pb rates n s l).run told = ((t, l'), told ++ more) ∧
      (more.filterMap Moment.grown?).map PaletteSet.slots = List.range' (s.slots + 1) n ∧
      ((s :: more.filterMap Moment.grown?).map (error pb)).IsChain (· ≥ ·) ∧
      t = (more.filterMap Moment.grown?).getLastD s ∧
      t.slots = s.slots + n ∧ t.zero = s.zero ∧ t.size = s.size := by
  induction n generalizing s l told with
  | zero => exact ⟨s, l, [], by rw [List.append_nil]; rfl, rfl, by simp, rfl, rfl, rfl, rfl⟩
  | succ n ih =>
    obtain ⟨hslots, hzero, hsize⟩ := growOne_shape pb l s rates
    obtain ⟨t, l', more, hrun, hcount, hchain, hlast, htslots, htzero, htsize⟩ :=
      ih (l.growOne pb s rates).learner (l.growOne pb s rates).set
        (told ++ ((l.growOne pb s rates).moment.toList ++ [.grown (l.growOne pb s rates).set]))
        fun t hz hle hlt => hseed t (hz.trans hzero) (by omega) (by omega)
    refine ⟨t, l', (l.growOne pb s rates).moment.toList ++ [.grown (l.growOne pb s rates).set] ++ more, ?_, ?_⟩
    · rw [growBy_keep_succ, hrun, List.append_assoc]
    · have hgrown : ((l.growOne pb s rates).moment.toList ++ [Moment.grown (l.growOne pb s rates).set] ++ more).filterMap
          Moment.grown? = (l.growOne pb s rates).set :: more.filterMap Moment.grown? := by
        rw [List.filterMap_append, List.filterMap_append, growOne_moment]
        rfl
      have hfirst : error pb (l.growOne pb s rates).set ≤ error pb s :=
        (error_growOne_le pb l s rates).trans (hseed s rfl le_rfl (by omega))
      rw [hgrown, List.getLastD_cons]
      refine ⟨?_, List.isChain_cons_cons.2 ⟨hfirst, hchain⟩, hlast, by omega, htzero.trans hzero, htsize.trans hsize⟩
      rw [List.map_cons, hcount, hslots]
      rfl

/-- **Growth descends** where seeding does. -/
theorem grow_descends (target : Nat)
    (hseed : ∀ t : PaletteSet Rat, t.zero = s.zero → s.slots ≤ t.slots → t.slots < target →
      error pb (seeded pb.tiles t) ≤ error pb t) :
    ∃ t l' told, (l.grow Moment.keep pb s target rates).run [] = ((t, l'), told) ∧ GrowsDown pb s target t told := by
  obtain ⟨t, l', told, hrun, hcount, hchain, hlast, hslots, hzero, hsize⟩ :=
    growBy_descends pb l s rates (target - s.slots) [] fun t hz hle hlt => hseed t hz hle (by omega)
  exact ⟨t, l', told, hrun, hcount, List.isChain_iff_pairwise.1 hchain, hlast, by omega, hzero, hsize⟩

/-! ## Growth without mixes -/

/-- **Growth never raises the plain error.** It is a loop that ends: it tells one set for each further slot, from the first
up to the target, and hands over the last of them. The errors, from that of the starting set on, do not increase, whatever
the tiles, the policy, the order of the samples and their rates. Sets are values, so the starting set stays what it is. -/
theorem grow_errors_descend (ts : TileSet) (hc : 0 < s.candidateCount) (target : Nat) :
    (∀ (m : Type → Type) [Monad m] [LawfulMonad m] (tell : Moment Rat → m Unit),
      l.grow tell ⟨ts, none⟩ s target rates =
        if s.slots < target then do
          (l.growOne ⟨ts, none⟩ s rates).moment.elim (pure ()) tell
          tell (.grown (l.growOne ⟨ts, none⟩ s rates).set)
          (l.growOne ⟨ts, none⟩ s rates).learner.grow tell ⟨ts, none⟩ (l.growOne ⟨ts, none⟩ s rates).set target rates
        else pure (s, l)) ∧
    ∃ t l' told, (l.grow Moment.keep ⟨ts, none⟩ s target rates).run [] = ((t, l'), told) ∧
      GrowsDown ⟨ts, none⟩ s target t told := by
  refine ⟨fun m _ _ tell => grow_loop ⟨ts, none⟩ l s rates tell target, grow_descends ⟨ts, none⟩ l s rates target ?_⟩
  intro t hzero hle _
  have hct : 0 < t.candidateCount := by
    rw [PaletteSet.candidateCount, PaletteSet.firstCandidate] at hc ⊢
    rw [hzero]
    omega
  exact Fit.meanError_le_of_rowsLe none ts (Fit.errors_none_addSlot_le ts hct _ _)

/-- Two tiles of two colours each. -/
def smallTiles : TileSet :=
  .ofBlocks 1 2 2 1
    [[(⟨10, 20, 30⟩, false), (⟨200, 90, 180⟩, false)], [(⟨60, 80, 10⟩, false), (⟨250, 250, 20⟩, false)]]

/-- Two palettes of a transparent and a gray slot. -/
def smallSet : PaletteSet Rat :=
  ⟨.transparentAlpha, 2, [#v[⟨0, 0, 0⟩, ⟨64, 64, 64⟩], #v[⟨0, 0, 0⟩, ⟨192, 192, 192⟩]]⟩

/-- A learner of the four samples of the tiles. -/
def smallLearner : Learner Rat Generator :=
  .start (Shuffler.start smallTiles.samples.size (default : Generator)).1
    (Shuffler.start smallTiles.samples.size (default : Generator)).2

/-- Growth from two slots to four, with two samples for each. -/
theorem grow_errors_descend_small :
    0 < smallSet.candidateCount ∧
      ∃ t l' told, (smallLearner.grow Moment.keep ⟨smallTiles, none⟩ smallSet 4 [1 / 10, 1 / 20]).run [] = ((t, l'), told) ∧
        (told.filterMap Moment.grown?).map PaletteSet.slots = [3, 4] ∧ t.slots = 4 ∧
        ((smallSet :: told.filterMap Moment.grown?).map (Fit.meanError none smallTiles)).Pairwise (· ≥ ·) := by
  have hc : 0 < smallSet.candidateCount := by decide
  obtain ⟨-, t, l', told, hrun, hgrows⟩ := grow_errors_descend smallLearner smallSet [1 / 10, 1 / 20] smallTiles hc 4
  exact ⟨hc, t, l', told, hrun, hgrows.slots, hgrows.shape.1, hgrows.errors⟩

end Learner

end Tessera
