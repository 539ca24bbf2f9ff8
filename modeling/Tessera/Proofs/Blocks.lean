import Mathlib
import Tessera.Proofs.Acts
import Tessera.Proofs.Cache
import Tessera.Proofs.Ceilings
import Tessera.Proofs.Schedules
import Tessera.Proofs.Tracking
/-!
# Learning in blocks

A run begins with an empty cache, draws its own samples and takes the rates from an offset on. The samples of one run and of
the next are those of one longer walk, and so are the rates. What is remembered at the start of the second run can be told
only where remembered errors are not the errors (`Cache.Faithful`). Everywhere else two runs in a row are one run
(`Learner.run_append`), and a phase of blocks leaves the palettes of a single run, whatever the blocks are
(`Learner.performAll_finalActs`). How often the palettes are measured depends on the blocks.
-/

namespace Tessera

/-- Samples may be applied in two goes. -/
theorem Learn.run_append {α : Type} [Scalar α] [Scalar.ProperZero α] {ts : TileSet} {s : PaletteSet α}
    (hs : Cache.Faithful ts s) (xs ys : List (Nat × α)) : run ts s (xs ++ ys) = run ts (run ts s xs) ys := by
  have hfirst := run_eq_foldl s hs xs
  have hsize : (run ts s xs).size = s.size := by rw [hfirst, runUncached_size]
  rw [run_eq_foldl s hs, run_eq_foldl _ (hs.of_size hsize), hfirst]
  exact List.foldl_append

namespace Learner

variable {α γ : Type} [Scalar α] [OrderSource γ]

omit [Scalar α] in
theorem length_drawn (l : Learner α γ) (h : 0 < l.shuffler.size) (rates : List α) :
    (l.drawn rates).length = rates.length := by
  rw [drawn, List.length_zip, Shuffler.take_length _ _ h, Nat.min_self]

theorem run_eq (pb : Problem α) (l : Learner α γ) (s : PaletteSet α) (rates : List α) :
    l.run pb s rates = (Learn.run pb.tiles s (l.drawn rates),
      { l with
        shuffler := (l.shuffler.take l.source rates.length).2.1
        source := (l.shuffler.take l.source rates.length).2.2 }) := rfl

/-- The samples of two runs are those of one. -/
theorem drawn_append (pb : Problem α) (l : Learner α γ) (h : 0 < l.shuffler.size) (s : PaletteSet α) (xs ys : List α) :
    l.drawn (xs ++ ys) = l.drawn xs ++ (l.run pb s xs).2.drawn ys := by
  have hlen := Shuffler.take_length l.shuffler l.source h xs.length
  simp only [drawn, run_eq, List.length_append, Shuffler.take_add _ _ h]
  exact List.zip_append hlen

/-- Two runs draw what one run draws. -/
theorem run_append_snd (pb : Problem α) (l : Learner α γ) (h : 0 < l.shuffler.size) (s : PaletteSet α) (xs ys : List α) :
    ((l.run pb s xs).2.run pb (l.run pb s xs).1 ys).2 = (l.run pb s (xs ++ ys)).2 := by
  rw [run_eq pb l s (xs ++ ys), List.length_append, Shuffler.take_add _ _ h]
  rfl

/-- **Two runs are one run.** -/
theorem run_append [Scalar.ProperZero α] (pb : Problem α) (l : Learner α γ) (h : 0 < l.shuffler.size) {s : PaletteSet α}
    (hs : Cache.Faithful pb.tiles s) (xs ys : List α) :
    (l.run pb s xs).2.run pb (l.run pb s xs).1 ys = l.run pb s (xs ++ ys) := by
  have hdrawn := drawn_append pb l h s xs ys
  refine Prod.ext ?_ (run_append_snd pb l h s xs ys)
  rw [run_eq pb l s (xs ++ ys), hdrawn, Learn.run_append hs]
  rfl

theorem run_faithful [Scalar.ProperZero α] (pb : Problem α) (l : Learner α γ) {s : PaletteSet α}
    (hs : Cache.Faithful pb.tiles s) (rates : List α) : Cache.Faithful pb.tiles (l.run pb s rates).1 := by
  refine hs.of_size ?_
  rw [run_eq, Learn.run_eq_foldl s hs, Learn.runUncached_size]

variable (pb : Problem α)

theorem length_history_performAll (w : Work α γ) (blocks : List (Stretch α)) :
    (w.performAll pb (blocks.flatMap fun x => finalActs x.rates)).learner.history.length =
      w.learner.history.length + blocks.length := by
  induction blocks generalizing w with
  | nil => rfl
  | cons x blocks ih =>
    have hblock : (w.performAll pb (finalActs x.rates)).learner.history.length = w.learner.history.length + 1 :=
      List.length_append
    rw [List.flatMap_cons, Work.performAll_append, ih, hblock, List.length_cons]
    omega

/-- Where remembered errors are the errors, blocks leave the palettes of one run with all their rates. -/
theorem performAll_finalActs [Scalar.ProperZero α] (w : Work α γ) (h : 0 < w.learner.shuffler.size)
    (hs : Cache.Faithful pb.tiles w.set) (blocks : List (Stretch α)) :
    (w.performAll pb (blocks.flatMap fun x => finalActs x.rates)).set =
      (w.learner.run pb w.set (blocks.flatMap Stretch.rates)).1 := by
  induction blocks generalizing w with
  | nil => simp [run_fst, drawn, Learn.run]
  | cons x blocks ih =>
    have hsize : 0 < (w.performAll pb (finalActs x.rates)).learner.shuffler.size :=
      h.trans_eq (Work.perform_size pb w h (.draw x.rates)).symm
    rw [List.flatMap_cons, List.flatMap_cons, Work.performAll_append, ← run_append pb w.learner h hs]
    exact ih (w.performAll pb (finalActs x.rates)) hsize (run_faithful pb w.learner hs x.rates)

theorem length_finalMoments (index : Nat) (blocks : List (Stretch α)) (s : PaletteSet α) (l : Learner α γ) :
    (finalMoments pb index blocks s l).length = blocks.length := by
  induction blocks generalizing index s l with
  | nil => rfl
  | cons x blocks ih => rw [finalMoments, List.length_cons, ih, List.length_cons]

/-- What a phase without reseeding comes to: it tells one moment for each block, and leaves the place in the samples of one
run. Where remembered errors are the errors, it leaves the palettes of one run too. -/
theorem finalPhase_blocks [Scalar.ProperZero α] {m : Type → Type} [Monad m] [LawfulMonad m] (tell : Moment α → m Unit)
    (s : PaletteSet α) (l : Learner α γ) (h : 0 < l.shuffler.size) (blocks : List (Stretch α)) :
    ∃ (moments : List (Moment α)) (t : PaletteSet α) (k : Learner α γ), moments.length = blocks.length ∧
      finalPhase tell pb blocks s l = (do forM moments tell; pure (t, k)) ∧
      (Cache.Faithful pb.tiles s → t = (l.run pb s (blocks.flatMap Stretch.rates)).1) ∧
      k.shuffler = (l.run pb s (blocks.flatMap Stretch.rates)).2.shuffler ∧
      k.source = (l.run pb s (blocks.flatMap Stretch.rates)).2.source ∧
      k.history.length = l.history.length + blocks.length := by
  -- the turns at both ends touch only the phase
  let w : Work α γ := ⟨s, { l with phase := .annealing }, ⟨0, 0⟩⟩
  have hwalk := Work.performAll_walk pb w h (blocks.flatMap fun x => finalActs x.rates)
  have hrates : (blocks.flatMap fun x => finalActs x.rates).flatMap Act.rates = blocks.flatMap Stretch.rates := by
    simp [List.flatMap_assoc, finalActs, Act.rates]
  have hacts : Work.performAll pb ⟨s, l, ⟨0, 0⟩⟩
      (.turn .annealing :: blocks.flatMap (fun x => finalActs x.rates) ++ [.turn .converged]) =
      (w.performAll pb (blocks.flatMap fun x => finalActs x.rates)).perform pb (.turn .converged) := by
    rw [Work.performAll_append]
    rfl
  have hphase := finalPhase_eq pb tell blocks ⟨s, l, ⟨0, 0⟩⟩
  rw [hacts] at hphase
  rw [hrates] at hwalk
  exact ⟨_, _, _, length_finalMoments pb 0 blocks w.set w.learner, hphase, fun hs => performAll_finalActs pb w h hs blocks,
    congrArg Prod.fst hwalk, congrArg Prod.snd hwalk, length_history_performAll pb w blocks⟩

end Learner

theorem natCast_ceilDiv (total : Nat) {block : Nat} (h : 0 < block) :
    (((total + (block - 1)) / block : Nat) : Int) = ⌈(total / block : Rat)⌉ := by
  have hpos : (0 : Rat) < block := by exact_mod_cast h
  have hdiv := Nat.div_add_mod' (total + (block - 1)) block
  have hmod := Nat.mod_lt (total + (block - 1)) h
  generalize (total + (block - 1)) / block = q at *
  have hlower : q * block < total + block := by omega
  have hupper : total ≤ q * block := by omega
  symm
  rw [Int.ceil_eq_iff, lt_div_iff₀ hpos, div_le_iff₀ hpos]
  push_cast
  constructor
  · have : (q : Rat) * block < total + block := by exact_mod_cast hlower
    linarith
  · exact_mod_cast hupper

theorem countBlocks_natural (total : Nat) {block : Nat} (hblock : 0 < block) :
    countBlocks Float total block = Scalar.ceil (Decimal.ofNat total / Decimal.ofNat block) := by
  have hmax : max 1 (block : Int) = block := by omega
  rw [countBlocks, hmax]
  rfl

theorem Number.max_one {block : Nat} (h : 0 < block) : Number.max (.whole 1) (.whole block) = .whole block := by
  have hlt : Number.lt (.whole 1) (.whole block) = decide ((1 : Int) < block) := rfl
  rw [Number.max, hlt]
  by_cases hone : (1 : Int) < block
  · rw [decide_eq_true hone, if_pos rfl]
  · rw [decide_eq_false hone, if_neg Bool.false_ne_true]
    congr 1
    omega

theorem Number.ofValue_int (n : Int) : Number.ofValue (.int n) = .ok (.whole n) := rfl

/-- Values that are integers are counted in the same way when they and their quotient have floating-point numbers. -/
theorem countGivenBlocks_natural {total block : Nat} (hblock : 0 < block) (htotal : (Decimal.ofNat total).isFinite)
    (hsize : (Decimal.ofNat block).isFinite) (hquotient : (Decimal.ofNat total / Decimal.ofNat block).isFinite) :
    countGivenBlocks (.int total) (.int block) = .ok (countBlocks Float total block) := by
  have htop : (Number.whole total).toFloat = .ok (Decimal.ofNat total) := if_pos htotal
  have hbottom : (Number.whole block).toFloat = .ok (Decimal.ofNat block) := if_pos hsize
  have htruncate : Number.truncateReal (Decimal.ofNat total / Decimal.ofNat block) =
      .ok (Decimal.truncated (Decimal.ofNat total / Decimal.ofNat block)) := by
    rw [Number.truncateReal, Floats.isNaN_of_isFinite hquotient, hquotient]
    rfl
  rw [countBlocks_natural total hblock]
  simp only [countGivenBlocks, Number.ofValue_int, bind, Except.bind, Number.max_one hblock, htop, hbottom, htruncate]
  rfl

/-- A block that has no floating-point number is refused. -/
theorem countGivenBlocks_overflow (total : Value) {block : Nat} (hblock : 0 < block)
    (hsize : (Decimal.ofNat block).isFinite = false) : countGivenBlocks total (.int block) = refuse .overflow := by
  have hbottom : (Number.whole block).toFloat = refuse .overflow := if_neg (by
    have hofInt : Decimal.ofInt block = Decimal.ofNat block := rfl
    rw [hofInt, hsize]
    exact Bool.false_ne_true)
  simp only [countGivenBlocks, Number.ofValue_int, bind, Except.bind, Number.max_one hblock, hbottom]
  rfl

namespace Learner

/-- **Blocks and learning.** Two runs in a row, with the rates of the second from where the first has stopped, leave the same
learner as one run. A phase without reseeding draws as many samples as it is given, and it measures and tells once in each
block. Where remembered errors are the errors, the palettes do not depend on the blocks either: two runs in a row are one
run, and the phase leaves the palettes of one run of all its samples. There are as many blocks as the quotient rounded up. Up
to `2 ^ 53` samples this is what is counted by floating-point numbers, unless the block has none and is refused. -/
theorem run_blocks {α γ : Type} [Scalar α] [Scalar.ProperZero α] [OrderSource γ] {m : Type → Type} [Monad m] [LawfulMonad m]
    (tell : Moment α → m Unit) (pb : Problem α) (s : PaletteSet α) (l : Learner α γ) (hsize : 0 < l.shuffler.size)
    (schedule : Schedule α) (offset : Int) :
    (∀ a b : Nat,
      ((l.run pb s (schedule.rates offset a)).2.run pb (l.run pb s (schedule.rates offset a)).1
          (schedule.rates (offset + a) b)).2 = (l.run pb s (schedule.rates offset (a + b))).2 ∧
      (Cache.Faithful pb.tiles s →
        (l.run pb s (schedule.rates offset a)).2.run pb (l.run pb s (schedule.rates offset a)).1
          (schedule.rates (offset + a) b) = l.run pb s (schedule.rates offset (a + b)))) ∧
    ∀ total block : Nat, 0 < block →
      (∃ (moments : List (Moment α)) (t : PaletteSet α) (k : Learner α γ),
        (moments.length : Int) = ⌈(total / block : Rat)⌉ ∧
        finalPhase tell pb (schedule.stretches offset total block) s l = (do forM moments tell; pure (t, k)) ∧
        (Cache.Faithful pb.tiles s → t = (l.run pb s (schedule.rates offset total)).1) ∧
        (l.drawn (schedule.rates offset total)).length = total ∧
        k.shuffler = (l.run pb s (schedule.rates offset total)).2.shuffler ∧
        k.source = (l.run pb s (schedule.rates offset total)).2.source ∧
        (k.history.length : Int) = l.history.length + ⌈(total / block : Rat)⌉) ∧
      (total ≤ 2 ^ 53 → (Scalar.ofNat block : Float).isFinite →
        countBlocks Float total block = ⌈(total / block : Rat)⌉ ∧
        countGivenBlocks (.int total) (.int block) = .ok ⌈(total / block : Rat)⌉) ∧
      ((Scalar.ofNat block : Float).isFinite = false → countGivenBlocks (.int total) (.int block) = refuse .overflow) := by
  refine ⟨fun a b => ?_, fun total block hblock => ⟨?_, fun htotal hfinite => ?_,
    fun hfinite => countGivenBlocks_overflow _ hblock hfinite⟩⟩
  · rw [Schedule.rates_add]
    exact ⟨run_append_snd pb l hsize s _ _, fun hs => run_append pb l hsize hs _ _⟩
  · have hlength := natCast_ceilDiv total hblock
    rw [← schedule.length_stretches offset total hblock] at hlength
    obtain ⟨moments, t, k, hmoments, hphase, hset, hshuffler, hsource, hhistory⟩ :=
      finalPhase_blocks pb tell s l hsize (schedule.stretches offset total block)
    rw [schedule.flatMap_stretches offset total hblock] at hset hshuffler hsource
    refine ⟨moments, t, k, by rw [hmoments, hlength], hphase, hset, ?_, hshuffler, hsource, ?_⟩
    · rw [length_drawn l hsize, Schedule.length_rates]
    · rw [hhistory, Nat.cast_add, hlength]
  · obtain ⟨hquotient, hceil⟩ := ceil_ofNat_div htotal hblock hfinite
    have hcount := (countBlocks_natural total hblock).trans hceil
    have htop := (Floats.value_natural htotal).1
    exact ⟨hcount, hcount ▸ countGivenBlocks_natural hblock htop hfinite hquotient⟩

/-- Nine samples, of which the first two are behind the learner. -/
def someSchedule : Schedule Float := ⟨0.3, 0.05, 9⟩

/-- Seven samples at once, as three and four, in blocks of three and in blocks of two. -/
theorem run_blocks_small :
    (singleLearner.run ⟨smallTiles, none⟩ singleSet (someSchedule.rates 2 3)).2.run ⟨smallTiles, none⟩
        (singleLearner.run ⟨smallTiles, none⟩ singleSet (someSchedule.rates 2 3)).1 (someSchedule.rates 5 4) =
      singleLearner.run ⟨smallTiles, none⟩ singleSet (someSchedule.rates 2 7) ∧
    (Id.run (finalPhase (fun _ => pure ()) ⟨smallTiles, none⟩ (someSchedule.stretches 2 7 3) singleSet singleLearner)).1 =
      (Id.run (finalPhase (fun _ => pure ()) ⟨smallTiles, none⟩ (someSchedule.stretches 2 7 2) singleSet singleLearner)).1 ∧
    countBlocks Float 7 3 = 3 ∧ countGivenBlocks (.int 7) (.int 2) = .ok 4 := by
  obtain ⟨hruns, hphase⟩ := run_blocks (m := Id) (fun _ => pure ()) ⟨smallTiles, none⟩ singleSet singleLearner
    (by decide +kernel) someSchedule 2
  have hone : Cache.Faithful smallTiles singleSet := .inl rfl
  obtain ⟨⟨moments, t, k, -, hthree, ht, -⟩, hcount, -⟩ := hphase 7 3 (by decide)
  obtain ⟨⟨moments', t', k', -, htwo, ht', -⟩, hcount', -⟩ := hphase 7 2 (by decide)
  have hceil : ⌈((7 : Nat) / (3 : Nat) : Rat)⌉ = 3 := by norm_num [Int.ceil_eq_iff]
  have hceil' : ⌈((7 : Nat) / (2 : Nat) : Rat)⌉ = 4 := by norm_num [Int.ceil_eq_iff]
  rw [hceil] at hcount
  rw [hceil'] at hcount'
  refine ⟨(hruns 3 4).2 hone, ?_, (hcount (by decide) (by decide +kernel)).1, (hcount' (by decide) (by decide +kernel)).2⟩
  rw [hthree, htwo, ht hone, ht' hone]
  simp

/-- A learner that is about to draw eight samples in their own order. -/
def orderedLearner : Learner Float Generator := .start ⟨8, Array.range 8, 0, 0⟩ default

/-- A sample that moves nothing, and then one that moves a colour half of the way. -/
def lateSchedule : Schedule Float := ⟨0, 0.5, 1⟩

/-- Above `2 ^ 53` samples the quotient is that of other numbers: one sample is lost. And a second run, which begins with
nothing remembered, takes the second sample to another palette than a run of both does, so blocks of one and of
two samples leave different palettes. -/
theorem run_blocks_fails :
    countGivenBlocks (.int 9007199254740993) (.int 1) = .ok 9007199254740992 ∧
    (¬ ∀ total block : Nat, 0 < block → countBlocks Float total block = ⌈(total / block : Rat)⌉) ∧
    Learn.darkened ((orderedLearner.run ⟨Learn.eightReds, none⟩ Learn.twoReds (lateSchedule.rates 0 1)).2.run
      ⟨Learn.eightReds, none⟩ (orderedLearner.run ⟨Learn.eightReds, none⟩ Learn.twoReds (lateSchedule.rates 0 1)).1
      (lateSchedule.rates 1 1)).1 = [true, false] ∧
    Learn.darkened (orderedLearner.run ⟨Learn.eightReds, none⟩ Learn.twoReds (lateSchedule.rates 0 2)).1 = [false, true] ∧
    Learn.darkened (Id.run (finalPhase (fun _ => pure ()) ⟨Learn.eightReds, none⟩ (lateSchedule.stretches 0 2 1)
      Learn.twoReds orderedLearner)).1 = [true, false] ∧
    Learn.darkened (Id.run (finalPhase (fun _ => pure ()) ⟨Learn.eightReds, none⟩ (lateSchedule.stretches 0 2 2)
      Learn.twoReds orderedLearner)).1 = [false, true] := by
  have hcount : countBlocks Float (9007199254740993 : Nat) (1 : Nat) = 9007199254740992 := by decide +kernel
  refine ⟨(countGivenBlocks_natural one_pos (by decide +kernel) (by decide +kernel) (by decide +kernel)).trans
    (congrArg Except.ok hcount), fun h => ?_, by decide +kernel⟩
  have hclaim := h 9007199254740993 1 one_pos
  have hceil : ⌈((9007199254740993 : Nat) / (1 : Nat) : Rat)⌉ = 9007199254740993 := by norm_num
  rw [hcount, hceil] at hclaim
  exact absurd hclaim (by decide)

end Learner

end Tessera
