import Mathlib
import Tessera.Proofs.Guards
import Tessera.Proofs.Shuffling
import Tessera.Proofs.Steps
/-!
# Guarded learning

Drawing, growing and reseeding under guard. A learner is sound for a problem (`Learner.Sound`) when its shuffler hands out
the numbers of the samples. Steps of a sound learner with palettes that can be used are never refused, and leave such a
learner and such palettes again. The delicate one is the reseeding of a palette: its colours come in turn from a tile, so
that tile must have some. It has, since a tile without colours has error zero, and such a tile is not taken
(`Guarded.weakPalette_eq_ok`).
-/

namespace Tessera

/-- Scalars whose zero is not above itself, nor below minus one. -/
class Scalar.OrderedZero (α : Type) [Scalar α] : Prop where
  zero_le : (Scalar.ofNat 0 : α) ≤ Scalar.ofNat 0
  minusOne_le : (Scalar.ofInt (-1) : α) ≤ Scalar.ofNat 0

instance : Scalar.OrderedZero Float := ⟨by decide +kernel, by decide +kernel⟩

instance : Scalar.OrderedZero Rat := ⟨le_refl _, by decide⟩

/-- A shuffler of some numbers, whose order has each of them. -/
structure Shuffler.Sound (s : Shuffler) : Prop where
  size_pos : 0 < s.size
  order_perm : s.order.toList.Perm (List.range s.size)

/-- A learner that draws the samples of a problem. A best set that it has can be used. -/
structure Learner.Sound {α γ : Type} (pb : Problem α) (l : Learner α γ) : Prop where
  shuffler : l.shuffler.Sound
  size_eq : l.shuffler.size = pb.tiles.samples.size
  best : ∀ b ∈ l.best, b.set.Usable

theorem Shuffler.start_sound {γ : Type} [OrderSource γ] [LawfulSource γ] {n : Nat} (h : 0 < n) (g : γ) :
    (Shuffler.start n g).1.Sound := ⟨h, LawfulSource.order_perm n g⟩

namespace Guarded

variable {α γ : Type} [OrderSource γ]

/-! ## Drawing -/

/-- The next `count` numbers, a stretch of a pass at a time. -/
def take (s : Shuffler) (g : γ) (count : Nat) : Result (List Nat × Shuffler × γ) :=
  if count = 0 then pure ([], s, g)
  else
    let next := s.ready g
    let stretch := min count next.1.remaining
    if _h : 0 < stretch then do
      let here ← (List.range stretch).mapM fun k => item next.1.order.toList (next.1.cursor + k)
      let rest ← take { next.1 with cursor := next.1.cursor + stretch } next.2 (count - stretch)
      pure (here ++ rest.1, rest.2)
    else refuse .position
termination_by count
decreasing_by
  have : 0 < min count next.1.remaining := _h
  show count - min count next.1.remaining < count
  omega

section Drawing

variable [LawfulSource γ] {s : Shuffler} (g : γ)

theorem ready_sound (hs : s.Sound) : (s.ready g).1.Sound := by
  unfold Shuffler.ready
  split
  · exact ⟨hs.size_pos, LawfulSource.order_perm s.size g⟩
  · exact hs

/-- The order of a sound shuffler has all its places, and numbers of samples stand there. -/
theorem item_order_eq_ok (hs : s.Sound) {i : Nat} (h : i < s.size) :
    item s.order.toList i = .ok (s.order.getD i 0) ∧ s.order.getD i 0 < s.size := by
  have hi : i < s.order.size := by
    rw [← Array.length_toList, hs.order_perm.length_eq, List.length_range]
    exact h
  have hmem : s.order.getD i 0 ∈ s.order.toList := by simp [hi]
  refine ⟨item_eq_ok (by simp [hi]), ?_⟩
  exact List.mem_range.1 (hs.order_perm.mem_iff.1 hmem)

/-- Numbers are drawn from a sound shuffler as long as they are asked for. -/
theorem take_eq_ok (hs : s.Sound) (n : Nat) :
    take s g n = .ok (s.take g n) ∧ (∀ i ∈ (s.take g n).1, i < s.size) ∧ (s.take g n).2.1.Sound := by
  induction n using Nat.strong_induction_on generalizing s g with
  | _ n ih =>
    rw [take, Shuffler.take]
    by_cases hn : n = 0
    · rw [if_pos hn, if_pos hn]
      exact ⟨rfl, by simp, hs⟩
    rw [if_neg hn, if_neg hn]
    have hsound := ready_sound g hs
    have hlt := s.ready_cursor_lt g hs.size_pos
    have hsize := s.ready_size g
    generalize s.ready g = r at hsound hlt hsize ⊢
    obtain ⟨t, g'⟩ := r
    dsimp only at hsound hlt hsize ⊢
    have hremaining : t.remaining = t.size - t.cursor := rfl
    have hpos : 0 < min n t.remaining := by omega
    rw [dif_pos hpos, dif_pos hpos]
    have hplace : ∀ k ∈ List.range (min n t.remaining), t.cursor + k < t.size := by
      intro k hk
      have := List.mem_range.1 hk
      omega
    have hhere := mapM_eq_ok (f := fun k => item t.order.toList (t.cursor + k)) fun k hk =>
      (item_order_eq_ok hsound (hplace k hk)).1
    obtain ⟨htake, hmem, hnext⟩ := ih (n - min n t.remaining) (by omega) g'
      (s := { t with cursor := t.cursor + min n t.remaining }) ⟨hsound.size_pos, hsound.order_perm⟩
    rw [hhere, ok_bind, htake, ok_bind]
    refine ⟨rfl, ?_, hnext⟩
    intro i hi
    rw [← hsize]
    rcases List.mem_append.1 hi with hi | hi
    · obtain ⟨k, hk, rfl⟩ := List.mem_map.1 hi
      exact (item_order_eq_ok hsound (hplace k hk)).2
    · exact hmem i hi

end Drawing

variable [Scalar α]

/-! ## The learner -/

/-- Draws a sample for each rate and applies the samples in order. -/
def run (pb : Problem α) (l : Learner α γ) (s : PaletteSet α) (rates : List α) :
    Result (PaletteSet α × Learner α γ) := do
  let drawn ← take l.shuffler l.source rates.length
  let s ← learn pb.tiles s (drawn.1.zip rates)
  pure (s, { l with shuffler := drawn.2.1, source := drawn.2.2 })

/-- Measures a set and keeps it when it is better than the best so far. -/
def checkpoint (pb : Problem α) (l : Learner α γ) (s : PaletteSet α) : Result (α × Learner α γ) := do
  let e ← meanError pb.rule pb.tiles s
  let best := if l.beats e then some ⟨s, e⟩ else l.best
  let l := { l with best }
  pure (e, { l with history := l.history ++ [l.bestError] })

/-- The best set so far, which has to be there. -/
def best (l : Learner α γ) : Result (Measured α) := l.best.elim (refuse .member) pure

section Learner

variable {pb : Problem α} {l : Learner α γ} {s : PaletteSet α}

theorem run_eq_ok [LawfulSource γ] (hpb : pb.tiles.Sound) (hl : l.Sound pb) (hs : s.Usable)
    (rates : List α) :
    run pb l s rates = .ok (l.run pb s rates) ∧ (l.run pb s rates).1.Usable ∧ (l.run pb s rates).2.Sound pb := by
  obtain ⟨htake, hmem, hsound⟩ := take_eq_ok l.source hl.shuffler rates.length
  have hsteps : ∀ step ∈ (l.shuffler.take l.source rates.length).1.zip rates, step.1 < pb.tiles.samples.size := by
    intro step hstep
    rw [← hl.size_eq]
    exact hmem _ (List.of_mem_zip hstep).1
  have hsize := l.shuffler.take_size l.source hl.shuffler.size_pos rates.length
  rw [run, htake, ok_bind, learn_eq_ok hpb hs hsteps, ok_bind]
  exact ⟨rfl, (Learn.run_sameShape _ _ _).usable hs, hsound, hsize.trans hl.size_eq, hl.best⟩

omit [OrderSource γ] in
/-- After a checkpoint there is a best set. -/
theorem checkpoint_eq_ok (hpb : pb.tiles.Sound) (hl : l.Sound pb) (hs : s.Usable) :
    checkpoint pb l s = .ok (l.checkpoint pb s) ∧ (l.checkpoint pb s).2.Sound pb ∧
      best (l.checkpoint pb s).2 = .ok ((l.checkpoint pb s).2.measuredBest s) := by
  rw [checkpoint, meanError_eq_ok pb.rule hpb hs, ok_bind]
  refine ⟨rfl, ⟨hl.shuffler, hl.size_eq, ?_⟩, ?_⟩
  · intro b hb
    simp only [Learner.checkpoint] at hb
    split at hb
    · cases hb
      exact hs
    · exact hl.best b hb
  · have hbest : (l.checkpoint pb s).2.best =
        if l.beats (Learner.error pb s) then some ⟨s, Learner.error pb s⟩ else l.best := rfl
    unfold best Learner.measuredBest
    rw [hbest]
    cases hold : l.best with
    | none =>
      simp only [Learner.beats, hold]
      rfl
    | some b =>
      split <;> rfl

end Learner

/-! ## Growth -/

/-- The seed of a palette: of the entries of its tiles the colour with the greatest weighted error, or its last colour
when it has no tiles. -/
def growthSeed (rs : Reseed.Residuals α) (p : Nat) (palette : List (Rgb α)) : Result (Rgb α) :=
  let own := rs.filter fun x => x.2.palette == p
  if own.isEmpty then palette.getLast?.elim (refuse .position) pure
  else do
    let worst ← greatest (own.map fun x => x.2.error * Scalar.ofNat x.1.count)
    let x ← item own worst.1
    pure (Rgb.ofBytes x.1.color)

/-- Adds a seeded slot to every palette. There has to be a seed for each. -/
def seeded (ts : TileSet) (s : PaletteSet α) : Result (PaletteSet α) := do
  let chosen ← assign none ts s
  let rs ← residuals ts s (chosen.map Prod.fst)
  let seeds ← s.toLists.zipIdx.mapM fun x => growthSeed rs x.2 x.1
  fits (seeds.length == s.size)
  pure (s.addSlot (Rgb.fill (Scalar.ofNat 0)) seeds)

/-- Adds a slot and settles with samples at given rates, unless that makes the set worse. -/
def growOne (pb : Problem α) (l : Learner α γ) (s : PaletteSet α) (rates : List α) : Result (Learner.Grown α γ) := do
  let start ← seeded pb.tiles s
  let before ← meanError pb.rule pb.tiles start
  let settled ← run pb l start rates
  let after ← meanError pb.rule pb.tiles settled.1
  pure (settled.2.judge start settled.1 before after)

section Growth

variable {ts : TileSet} {s : PaletteSet α}

theorem growthSeed_eq_ok (rs : Reseed.Residuals α) (p : Nat) {palette : List (Rgb α)} (h : palette ≠ []) (filler : Rgb α) :
    growthSeed rs p palette = .ok (Learner.growthSeed rs p (palette.getLast?.getD filler)) := by
  obtain ⟨c, hc⟩ := Option.ne_none_iff_exists'.1 (mt List.getLast?_eq_none_iff.1 h)
  rw [growthSeed, Learner.growthSeed, hc]
  dsimp only
  split
  · rename_i hown
    rw [List.isEmpty_iff.1 hown]
    rfl
  · rename_i hown
    have hne : ((rs.filter fun x => x.2.palette == p).map fun x => x.2.error * Scalar.ofNat x.1.count) ≠ [] := by
      rw [ne_eq, List.map_eq_nil_iff, ← List.isEmpty_iff]
      exact hown
    obtain ⟨k, v, hk, hv⟩ := Pick.exists_greatest? hne
    rw [List.getElem?_map] at hv
    obtain ⟨x, hx, -⟩ := Option.map_eq_some_iff.1 hv
    rw [greatest, hk]
    show (item (rs.filter fun x => x.2.palette == p) k >>= fun x => pure (Rgb.ofBytes x.1.color)) = _
    rw [item_eq_ok hx, ok_bind]
    dsimp only
    rw [hx]
    rfl

omit [Scalar α] in
theorem usable_addSlot (hs : s.Usable) (filler : Rgb α) (seeds : List (Rgb α)) : (s.addSlot filler seeds).Usable := by
  refine ⟨by rw [PaletteSet.addSlot_size]; exact hs.size_pos, ?_⟩
  have hcount := hs.candidates_pos
  have hfirst : (s.addSlot filler seeds).firstCandidate = s.firstCandidate := rfl
  simp only [PaletteSet.candidateCount, hfirst, PaletteSet.addSlot_slots] at hcount ⊢
  omega

theorem seeded_eq_ok (hts : ts.Sound) (hs : s.Usable) :
    seeded ts s = .ok (Learner.seeded ts s) ∧ (Learner.seeded ts s).Usable := by
  refine ⟨?_, usable_addSlot hs _ _⟩
  have hrs := residuals_eq_ok hts.inOrder hs (Fit.length_assignment none ts s) (Fit.assignment_lt none ts hs.size_pos)
  have hseeds := mapM_eq_ok (f := fun x : List (Rgb α) × Nat =>
      growthSeed (Reseed.residuals ts s (Fit.assignment none ts s)) x.2 x.1)
    (g := fun x => Learner.growthSeed (Reseed.residuals ts s (Fit.assignment none ts s)) x.2
      (x.1.getLast?.getD (Rgb.fill (Scalar.ofNat 0)))) (l := s.toLists.zipIdx) ?_
  · have hlen : ((Learner.growthSeeds ts s).length == s.size) = true := by
      simp [Learner.growthSeeds, PaletteSet.toLists, PaletteSet.size]
    rw [seeded, assign_eq_ok none hts hs, ok_bind]
    show (residuals ts s (Fit.assignment none ts s) >>= _) = _
    rw [hrs, ok_bind, hseeds, ok_bind]
    show (fits ((Learner.growthSeeds ts s).length == s.size) >>= _) = _
    rw [fits_eq_ok hlen]
    rfl
  · rintro ⟨palette, p⟩ hx
    obtain ⟨v, -, rfl⟩ := List.mem_map.1 (List.fst_mem_of_mem_zipIdx hx)
    have hslots := hs.slots_pos
    refine growthSeed_eq_ok _ p ?_ _
    rw [ne_eq, ← List.length_eq_zero_iff, Vector.length_toList]
    omega

/-- One slot more. -/
theorem growOne_eq_ok [LawfulSource γ] {pb : Problem α} {l : Learner α γ} (hpb : pb.tiles.Sound)
    (hl : l.Sound pb) (hs : s.Usable) (rates : List α) :
    growOne pb l s rates = .ok (l.growOne pb s rates) ∧ (l.growOne pb s rates).set.Usable ∧
      (l.growOne pb s rates).learner.Sound pb := by
  obtain ⟨hseeded, hstart⟩ := seeded_eq_ok hpb hs
  obtain ⟨hrun, husable, hsound⟩ := run_eq_ok hpb hl hstart rates
  rw [growOne, hseeded, ok_bind, meanError_eq_ok pb.rule hpb hstart, ok_bind, hrun, ok_bind,
    meanError_eq_ok pb.rule hpb husable]
  refine ⟨rfl, ?_⟩
  simp only [Learner.growOne, Learner.judge]
  split
  · exact ⟨hstart, hsound.shuffler, hsound.size_eq, hsound.best⟩
  · exact ⟨husable, hsound⟩

end Growth

/-! ## Reseeding colours -/

/-- Puts a colour into a slot and counts it. -/
def put (x : Reseed.Changed α) (p slot : Nat) (c : Rgb UInt8) : Result (Reseed.Changed α) := do
  let set ← change x.set p slot fun _ => Rgb.ofBytes c
  pure ⟨set, { x.counts with colors := x.counts.colors + 1 }⟩

/-- The contribution of every slot of every palette. Every residual has to count for one of them. -/
def contributions (s : PaletteSet α) (rs : Reseed.Residuals α) : Result (List (List α)) := do
  fits (rs.all fun x => decide (x.2.palette < s.size) && decide (x.2.slot < s.slots))
  pure (Reseed.contributions s rs)

/-- What a slot contributes to all palettes, added in the way of a number of columns. -/
def columnSum (contrib : List (List α)) (columns k : Nat) : Result α := do
  let column ← contrib.mapM fun row => item row k
  pure (Scalar.columnSum columns column)

/-- Reseeds the shared slot when it contributes little, and tells the colour. -/
def reseedShared (factor : α) (rs : Reseed.Residuals α) (contrib : List (List α)) (x : Reseed.Changed α) :
    Result (Reseed.Changed α × List (Rgb UInt8)) := do
  let others ← (List.range' 1 (x.set.slots - 1)).mapM (columnSum contrib (x.set.slots - 1))
  if others.isEmpty then pure (x, [])
  else
    let mean ← mean others
    let own ← columnSum contrib 1 0
    if mean ≤ Scalar.ofNat 0 ∨ factor * mean ≤ own then pure (x, [])
    else
      (Reseed.worst rs none []).head?.elim (pure (x, [])) fun c => do
        let x ← put x 0 0 c
        pure (x, [c])

/-- The slots of a palette that contribute little, the least first. -/
def weakSlots (factor : α) (first : Nat) (row : List α) : Result (List Nat) := do
  let own := row.drop first
  let mean ← mean own
  if mean ≤ Scalar.ofNat 0 then pure []
  else
    let weak := own.zipIdx.filter fun x => decide (x.1 < factor * mean)
    pure ((weak.mergeSort fun a b => Pick.ascends a.1 b.1).map fun x => first + x.2)

/-- Reseeds the weak slots of one palette. -/
def reseedPalette (factor : α) (rs : Reseed.Residuals α) (contrib : List (List α)) (taken : List (Rgb UInt8))
    (x : Reseed.Changed α) (p : Nat) : Result (Reseed.Changed α) := do
  let row ← item contrib p
  let weak ← weakSlots factor x.set.firstFree row
  (weak.zip (Reseed.worst rs (some (p : Int)) taken)).foldlM (fun x y => put x p y.1 y.2) x

/-- Reseeds the shared slot where there is one. -/
def reseedCommon (factor : α) (rs : Reseed.Residuals α) (contrib : List (List α)) (x : Reseed.Changed α) :
    Result (Reseed.Changed α × List (Rgb UInt8)) :=
  if x.set.zero == .shared then reseedShared factor rs contrib x else pure (x, [])

/-- Reseeds the weak colours of all palettes. -/
def reseedColors (factor : α) (ts : TileSet) (assigned : List Nat) (x : Reseed.Changed α) : Result (Reseed.Changed α) :=
  if decide (x.set.slots - x.set.firstFree < 2) && !(x.set.zero == .shared) then pure x
  else do
    let rs ← residuals ts x.set assigned
    let contrib ← contributions x.set rs
    let y ← reseedCommon factor rs contrib x
    if x.set.slots - x.set.firstFree < 2 then pure y.1
    else (List.range y.1.set.size).foldlM (reseedPalette factor rs contrib y.2) y.1

section ReseedingColors

variable {ts : TileSet} {s : PaletteSet α} {x : Reseed.Changed α} (factor : α)

theorem put_eq_ok {p slot : Nat} (hp : p < x.set.size) (hslot : slot < x.set.slots) (c : Rgb UInt8) :
    put x p slot c = .ok (Reseed.put x p slot c) := by
  rw [put, change_eq_ok hp hslot, ok_bind]
  rfl

theorem put_sameShape (hx : s.SameShape x.set) (p slot : Nat) (c : Rgb UInt8) :
    s.SameShape (Reseed.put x p slot c).set := hx.changeColor p slot _

theorem columnSum_eq_ok {contrib : List (List α)} (columns : Nat) {k : Nat} (h : ∀ row ∈ contrib, k < row.length) :
    columnSum contrib columns k =
      .ok (Scalar.columnSum columns (contrib.map fun row => row.getD k (Scalar.ofNat 0))) := by
  rw [columnSum, mapM_eq_ok fun row hrow => item_getD (h row hrow) (Scalar.ofNat 0)]
  rfl

theorem reseedShared_eq_ok (rs : Reseed.Residuals α) {contrib : List (List α)} (hs : x.set.Usable)
    (hrows : ∀ row ∈ contrib, row.length = x.set.slots) :
    reseedShared factor rs contrib x = .ok (Reseed.reseedShared factor rs contrib x) := by
  have hslots := hs.slots_pos
  have hothers := mapM_eq_ok (f := columnSum contrib (x.set.slots - 1))
    (g := fun k => Scalar.columnSum (x.set.slots - 1) (contrib.map fun row => row.getD k (Scalar.ofNat 0)))
    (l := List.range' 1 (x.set.slots - 1)) ?_
  · rw [reseedShared, hothers, ok_bind, Reseed.reseedShared]
    dsimp only
    split
    · rfl
    · rename_i hne
      rw [mean_eq_ok fun h => hne (List.isEmpty_iff.2 h), ok_bind,
        columnSum_eq_ok 1 fun row hrow => by rw [hrows row hrow]; exact hslots, ok_bind]
      split
      · rfl
      · cases Reseed.worst rs none [] with
        | nil => rfl
        | cons c cs =>
          show (put x 0 0 c >>= fun x => pure (x, [c])) = _
          rw [put_eq_ok hs.size_pos hslots]
          rfl
  · intro k hk
    refine columnSum_eq_ok _ fun row hrow => ?_
    have := List.mem_range'_1.1 hk
    rw [hrows row hrow]
    omega

theorem weakSlots_eq_ok {first : Nat} {row : List α} (h : first < row.length) :
    weakSlots factor first row = .ok (Reseed.weakSlots factor first row) ∧
      ∀ k ∈ Reseed.weakSlots factor first row, k < row.length := by
  have hne : row.drop first ≠ [] := by
    rw [ne_eq, List.drop_eq_nil_iff]
    omega
  rw [weakSlots, Reseed.weakSlots]
  dsimp only
  rw [mean_eq_ok hne, ok_bind]
  split
  · exact ⟨rfl, by simp⟩
  · refine ⟨rfl, ?_⟩
    intro k hk
    obtain ⟨⟨v, i⟩, hi, rfl⟩ := List.mem_map.1 hk
    have hlt := (List.mem_zipIdx (List.mem_of_mem_filter (List.mem_mergeSort.1 hi))).2.1
    rw [List.length_drop] at hlt
    dsimp only
    omega

/-- The weak slots of one palette. -/
theorem reseedPalette_eq_ok (rs : Reseed.Residuals α) {contrib : List (List α)} (taken : List (Rgb UInt8)) {p : Nat}
    (hp : p < x.set.size) (hfree : x.set.firstFree < x.set.slots) (hlen : contrib.length = x.set.size)
    (hrows : ∀ row ∈ contrib, row.length = x.set.slots) :
    reseedPalette factor rs contrib taken x p = .ok (Reseed.reseedPalette factor rs contrib taken x p) ∧
      x.set.SameShape (Reseed.reseedPalette factor rs contrib taken x p).set := by
  have hin : p < contrib.length := by omega
  have hrow : (contrib.getD p []).length = x.set.slots := hrows _ (by simp [hin])
  obtain ⟨hweak, hmem⟩ := weakSlots_eq_ok factor (hrow.symm ▸ hfree)
  have hfold := foldlM_eq_ok (f := fun y (step : Nat × Rgb UInt8) => put y p step.1 step.2)
    (g := fun y step => Reseed.put y p step.1 step.2) (fun y => x.set.SameShape y.set)
    (l := (Reseed.weakSlots factor x.set.firstFree (contrib.getD p [])).zip (Reseed.worst rs (some (p : Int)) taken))
    ?_ (s := x) (.refl _)
  · rw [reseedPalette, item_getD hin [], ok_bind, hweak, ok_bind, hfold.1, Reseed.reseedPalette]
    have hempty : Reseed.weakSlots factor x.set.firstFree (contrib.getD p []) = [] →
        List.foldl (fun y (step : Nat × Rgb UInt8) => Reseed.put y p step.1 step.2) x
          ((Reseed.weakSlots factor x.set.firstFree (contrib.getD p [])).zip
            (Reseed.worst rs (some (p : Int)) taken)) = x := by
      intro h
      rw [h]
      rfl
    split
    · rename_i h
      rw [hempty h]
      exact ⟨rfl, .refl _⟩
    · exact ⟨rfl, hfold.2⟩
  · intro y step hstep hy
    have hslot : step.1 < y.set.slots := by
      rw [hy.slots_eq, ← hrow]
      exact hmem _ (List.of_mem_zip hstep).1
    exact ⟨put_eq_ok (hy.size_eq ▸ hp) hslot _, put_sameShape hy _ _ _⟩

theorem contributions_rows (s : PaletteSet α) (rs : Reseed.Residuals α) :
    (Reseed.contributions s rs).length = s.size ∧ ∀ row ∈ Reseed.contributions s rs, row.length = s.slots := by
  refine ⟨by simp [Reseed.contributions], ?_⟩
  intro row hrow
  obtain ⟨p, -, rfl⟩ := List.mem_map.1 hrow
  simp

/-- The slot that all palettes share, if there is one. -/
theorem reseedCommon_eq_ok (rs : Reseed.Residuals α) {contrib : List (List α)} (hs : x.set.Usable)
    (hrows : ∀ row ∈ contrib, row.length = x.set.slots) :
    reseedCommon factor rs contrib x =
        .ok (if x.set.zero == .shared then Reseed.reseedShared factor rs contrib x else (x, [])) ∧
      x.set.SameShape (if x.set.zero == .shared then Reseed.reseedShared factor rs contrib x else (x, [])).1.set := by
  unfold reseedCommon
  split
  · refine ⟨reseedShared_eq_ok factor rs hs hrows, ?_⟩
    exact Reseed.reseedShared_induct (fun _ _ _ _ h => h.changeColor _ _ _) (.refl _) factor rs contrib
  · exact ⟨rfl, .refl _⟩

/-- The weak colours of all palettes. -/
theorem reseedColors_eq_ok (hts : ts.InOrder) (hs : x.set.Usable) {assigned : List Nat}
    (hlen : assigned.length = ts.tiles.length) (ha : ∀ p ∈ assigned, p < x.set.size) :
    reseedColors factor ts assigned x = .ok (Reseed.reseedColors factor ts assigned x) := by
  rw [reseedColors, Reseed.reseedColors]
  dsimp only
  split
  · rfl
  obtain ⟨hsize, hrows⟩ := contributions_rows x.set (Reseed.residuals ts x.set assigned)
  rw [residuals_eq_ok hts hs hlen ha, ok_bind, contributions, fits_residuals_eq_ok hts hs hlen ha]
  generalize Reseed.residuals ts x.set assigned = rs at hsize hrows ⊢
  generalize Reseed.contributions x.set rs = contrib at hsize hrows ⊢
  obtain ⟨hshared, hshape⟩ := reseedCommon_eq_ok factor rs hs hrows
  show (reseedCommon factor rs contrib x >>= _) = _
  rw [hshared, ok_bind]
  generalize (if x.set.zero == .shared then Reseed.reseedShared factor rs contrib x else (x, [])) = y at hshape ⊢
  split
  · rfl
  · rename_i hmany
    have hfree : x.set.firstFree < x.set.slots := by
      omega
    refine (foldlM_eq_ok (fun z : Reseed.Changed α => x.set.SameShape z.set) ?_ hshape).1
    intro z p hp hz
    have hfree' : z.set.firstFree < z.set.slots := by
      rw [hz.slots_eq, show z.set.firstFree = x.set.firstFree by simp only [PaletteSet.firstFree, hz.zero_eq]]
      exact hfree
    have hp : p < z.set.size := by
      have := List.mem_range.1 hp
      rw [hshape.size_eq] at this
      rw [hz.size_eq]
      exact this
    obtain ⟨hok, hsame⟩ := reseedPalette_eq_ok factor rs y.2 hp hfree' (hsize.trans hz.size_eq.symm)
      (by rw [hz.slots_eq]; exact hrows)
    exact ⟨hok, hsame.zero_eq.trans hz.zero_eq, hsame.slots_eq.trans hz.slots_eq, hsame.size_eq.trans hz.size_eq⟩

end ReseedingColors

/-! ## Reseeding palettes -/

/-- What the error of a tile gains when it cannot have its palette. There has to be another one. -/
def moveCost (row : List α) (p : Nat) : Result α := do
  let own ← item row p
  let second ← least (row.eraseIdx p)
  pure (if Scalar.isFinite second.2 then second.2 - own else Scalar.ofNat 0)

/-- The contribution of every palette. -/
def paletteContributions (size : Nat) (errors : List (List α)) (assigned : List Nat) : Result (List α) := do
  fits (errors.length == assigned.length && assigned.all fun p => decide (p < size))
  (List.range size).mapM fun p => do
    let costs ← ((errors.zip assigned).filter fun x => x.2 == p).mapM fun x => moveCost x.1 x.2
    pure (Scalar.sum costs)

/-- The error of the tiles outside a palette; the others count as less than none. -/
def outsideErrors (errors : List (List α)) (assigned : List Nat) (p : Nat) : Result (List α) :=
  (errors.zip assigned).mapM fun x => if x.2 != p then item x.1 x.2 else pure (Scalar.ofInt (-1))

/-- The palette to reseed and the tile to take its colours from. -/
def weakPalette (factor : α) (size : Nat) (errors : List (List α)) (assigned : List Nat) : Result (Option (Nat × Nat)) := do
  let contrib ← paletteContributions size errors assigned
  let mean ← mean contrib
  let weakest ← least contrib
  if mean ≤ Scalar.ofNat 0 ∨ factor * mean ≤ weakest.2 then pure none
  else
    let outside ← outsideErrors errors assigned weakest.1
    let worst ← greatest outside
    pure (if worst.2 ≤ Scalar.ofNat 0 then none else some (weakest.1, worst.1))

/-- Fills the free slots of a palette with colours in turn. -/
def fillPalette (s : PaletteSet α) (p : Nat) (colors : List (Rgb UInt8)) : Result (PaletteSet α) :=
  (List.range (s.slots - s.firstFree)).foldlM
    (fun s i => do
      let k ← remainder i colors.length
      let c ← item colors k
      change s p (s.firstFree + i) fun _ => Rgb.ofBytes c)
    s

/-- Reseeds the weakest palette from the tile that fits worst outside it. -/
def reseedWeakest (factor : α) (ts : TileSet) (errors : List (List α)) (assigned : List Nat) (x : Reseed.Changed α) :
    Result (Reseed.Changed α) := do
  let weak ← weakPalette factor x.set.size errors assigned
  weak.elim (pure x) fun q => do
    let tile ← item ts.tiles q.2
    let set ← fillPalette x.set q.1 (Reseed.byFrequency tile)
    pure ⟨set, { x.counts with palettes := x.counts.palettes + 1 }⟩

/-- Reseeds weak colours and then the weakest palette. The palettes are judged as they were before. -/
def replace (rule : ReseedRule α) (ts : TileSet) (x : Reseed.Changed α) : Result (Reseed.Changed α) :=
  if ts.entries.isEmpty then pure x
  else do
    let errors ← errors none ts x.set
    let chosen ← errors.mapM least
    let y ← reseedColors rule.colorFactor ts (chosen.map Prod.fst) x
    if 1 < x.set.size then reseedWeakest rule.paletteFactor ts errors (chosen.map Prod.fst) y else pure y

section ReseedingPalettes

variable {ts : TileSet} {s : PaletteSet α} {x : Reseed.Changed α} (factor : α)

theorem moveCost_eq_ok {row : List α} {p : Nat} (hp : p < row.length) (hrow : 1 < row.length) :
    moveCost row p = .ok (Reseed.moveCost row p) := by
  have hne : row.eraseIdx p ≠ [] := by
    rw [ne_eq, ← List.length_eq_zero_iff, List.length_eraseIdx_of_lt hp]
    omega
  obtain ⟨k, v, hk, -⟩ := Pick.exists_least? hne
  rw [moveCost, item_getD hp (Scalar.ofNat 0), ok_bind, least, hk, Reseed.moveCost, hk]
  rfl

section

variable {errors : List (List α)} {assigned : List Nat} {size : Nat}
variable (hlen : assigned.length = errors.length) (hrows : ∀ row ∈ errors, row.length = size)
variable (ha : ∀ p ∈ assigned, p < size)
include hrows ha

omit [Scalar α] in
theorem mem_zip_lt {y : List α × Nat} (hy : y ∈ errors.zip assigned) : y.2 < y.1.length := by
  rw [hrows _ (List.of_mem_zip hy).1]
  exact ha _ (List.of_mem_zip hy).2

theorem outsideErrors_eq_ok (p : Nat) : outsideErrors errors assigned p = .ok (Reseed.outsideErrors errors assigned p) := by
  refine mapM_eq_ok fun y hy => ?_
  have hlt := mem_zip_lt hrows ha hy
  obtain ⟨row, q⟩ := y
  dsimp only at hlt ⊢
  split
  · exact item_getD hlt _
  · rfl

include hlen

theorem paletteContributions_eq_ok (hsize : 1 < size) :
    paletteContributions size errors assigned = .ok (Reseed.paletteContributions size errors assigned) := by
  have hall : (errors.length == assigned.length && assigned.all fun p => decide (p < size)) = true := by
    simpa [hlen] using ha
  rw [paletteContributions, fits_eq_ok hall, ok_bind]
  refine mapM_eq_ok fun p _ => ?_
  rw [mapM_eq_ok (g := fun y => Reseed.moveCost y.1 y.2)]
  · rfl
  · intro y hy
    have hy := List.mem_of_mem_filter hy
    refine moveCost_eq_ok (mem_zip_lt hrows ha hy) ?_
    rw [hrows _ (List.of_mem_zip hy).1]
    exact hsize

/-- **The weakest palette.** When there are tiles and more than one palette, the weakest palette can be looked for. The tile
found with it has an error outside it that is not at most zero. -/
theorem weakPalette_eq_ok (hsize : 1 < size) (hne : errors ≠ []) :
    weakPalette factor size errors assigned = .ok (Reseed.weakPalette factor size errors assigned) ∧
      ∀ q ∈ Reseed.weakPalette factor size errors assigned, q.1 < size ∧
        ∃ e, (Reseed.outsideErrors errors assigned q.1)[q.2]? = some e ∧ ¬ e ≤ Scalar.ofNat 0 := by
  have hcontrib : (Reseed.paletteContributions size errors assigned).length = size := by
    simp [Reseed.paletteContributions]
  have hcontrib_ne : Reseed.paletteContributions size errors assigned ≠ [] := by
    rw [ne_eq, ← List.length_eq_zero_iff]
    omega
  obtain ⟨p, v, hp, hv⟩ := Pick.exists_least? hcontrib_ne
  have hlt : p < size := hcontrib ▸ (List.getElem?_eq_some_iff.1 hv).1
  have houtside : Reseed.outsideErrors errors assigned p ≠ [] := by
    have hpos := List.length_pos_iff.2 hne
    rw [ne_eq, ← List.length_eq_zero_iff, Reseed.outsideErrors, List.length_map, List.length_zip]
    omega
  obtain ⟨t, e, ht, he⟩ := Pick.exists_greatest? houtside
  have hvalue : Reseed.weakPalette factor size errors assigned =
      if Scalar.mean (Reseed.paletteContributions size errors assigned) ≤ Scalar.ofNat 0 ∨
          factor * Scalar.mean (Reseed.paletteContributions size errors assigned) ≤ v then none
      else if e ≤ Scalar.ofNat 0 then none else some (p, t) := by
    simp only [Reseed.weakPalette, hp, ht]
  rw [weakPalette, paletteContributions_eq_ok hlen hrows ha hsize, ok_bind, mean_eq_ok hcontrib_ne, ok_bind, least, hp, hvalue]
  constructor
  · show (if _ then _ else _) = _
    dsimp only
    split
    · rfl
    · rw [outsideErrors_eq_ok hrows ha, ok_bind, greatest, ht]
      rfl
  · intro q hq
    split at hq
    · cases hq
    split at hq
    · cases hq
    · rename_i hpos
      cases hq
      exact ⟨hlt, e, he, hpos⟩

end

/-- A tile whose error outside a palette is not at most zero has colours. -/
theorem histogram_ne_nil [Scalar.OrderedZero α] (hts : ts.InOrder) {assigned : List Nat}
    (ha : ∀ p ∈ assigned, p < s.size) {p t : Nat} {e : α}
    (he : (Reseed.outsideErrors (Fit.errors none ts s) assigned p)[t]? = some e) (hpos : ¬ e ≤ Scalar.ofNat 0) :
    ∃ tile, ts.tiles[t]? = some tile ∧ tile.histogram ≠ [] := by
  rw [Reseed.outsideErrors, List.getElem?_map] at he
  obtain ⟨⟨row, q⟩, hzip, rfl⟩ := Option.map_eq_some_iff.1 he
  obtain ⟨hrow, hq⟩ := List.getElem?_zip_eq_some.1 hzip
  rw [Fit.errors_eq none s hts, List.getElem?_map] at hrow
  obtain ⟨tile, htile, rfl⟩ := Option.map_eq_some_iff.1 hrow
  refine ⟨tile, htile, ?_⟩
  intro hempty
  apply hpos
  dsimp only
  split
  · -- a tile without colours costs nothing under any palette
    have hcost : ∀ cs : List (Rgb α), Fit.tileCost none tile cs = Scalar.ofNat 0 := by
      intro cs
      rw [Fit.tileCost, TileSet.tileEntries, hempty]
      rfl
    have hlt : q < s.candidates.length := by
      rw [s.length_candidates]
      exact ha q (List.mem_of_getElem? hq)
    simp only [List.getD, List.getElem?_map, List.getElem?_eq_getElem hlt, Option.map_some, Option.getD_some, hcost]
    exact Scalar.OrderedZero.zero_le
  · exact Scalar.OrderedZero.minusOne_le

theorem fillPalette_eq_ok {p : Nat} (hp : p < s.size) {colors : List (Rgb UInt8)} (hcolors : colors ≠ []) :
    fillPalette s p colors = .ok (Reseed.fillPalette s p colors) := by
  have hpos := List.length_pos_iff.2 hcolors
  refine (foldlM_eq_ok (fun t : PaletteSet α => s.SameShape t) ?_ (.refl s)).1
  intro t i hi ht
  obtain ⟨c, hc⟩ : ∃ c, colors[i % colors.length]? = some c :=
    ⟨_, List.getElem?_eq_getElem (Nat.mod_lt i hpos)⟩
  have hfree : t.firstFree = s.firstFree := by simp only [PaletteSet.firstFree, ht.zero_eq]
  have hslot : t.firstFree + i < t.slots := by
    have := List.mem_range.1 hi
    rw [hfree, ht.slots_eq]
    omega
  rw [remainder_eq_ok i hpos, ok_bind, item_eq_ok hc, ok_bind, hc, change_eq_ok (ht.size_eq ▸ hp) hslot]
  exact ⟨rfl, ht.changeColor _ _ _⟩

theorem reseedWeakest_eq_ok [Scalar.OrderedZero α] (hts : ts.Sound) {assigned : List Nat}
    (hlen : assigned.length = ts.tiles.length) (ha : ∀ p ∈ assigned, p < s.size) (hsize : 1 < s.size)
    (hx : s.SameShape x.set) :
    reseedWeakest factor ts (Fit.errors none ts s) assigned x =
      .ok (Reseed.reseedWeakest factor ts (Fit.errors none ts s) assigned x) := by
  have hrows : ∀ row ∈ Fit.errors none ts s, row.length = s.size := by
    intro row hrow
    obtain ⟨t, -, rfl⟩ := List.mem_map.1 hrow
    simp
  have hlength : (Fit.errors none ts s).length = ts.tiles.length := by simp [Fit.errors, Fit.errorsBy]
  have hne : Fit.errors none ts s ≠ [] := by
    have := hts.tiles_pos
    rw [ne_eq, ← List.length_eq_zero_iff]
    omega
  obtain ⟨hweak, hfound⟩ := weakPalette_eq_ok factor (hlen.trans hlength.symm) hrows ha hsize hne
  rw [reseedWeakest, Reseed.reseedWeakest, hx.size_eq, hweak, ok_bind]
  cases hcase : Reseed.weakPalette factor s.size (Fit.errors none ts s) assigned with
  | none => rfl
  | some q =>
    obtain ⟨hq, e, he, hpos⟩ := hfound q hcase
    obtain ⟨tile, htile, hhistogram⟩ := histogram_ne_nil hts.inOrder ha he hpos
    have hcolors : Reseed.byFrequency tile ≠ [] := by
      rw [ne_eq, ← List.length_eq_zero_iff]
      simpa [Reseed.byFrequency] using hhistogram
    show (item ts.tiles q.2 >>= _) = _
    rw [item_eq_ok htile, ok_bind, fillPalette_eq_ok (hx.size_eq ▸ hq) hcolors, ok_bind]
    dsimp only
    rw [htile]
    rfl

/-- **Reseeding under guard.** -/
theorem replace_eq_ok [Scalar.OrderedZero α] (rule : ReseedRule α) (hts : ts.Sound) (hs : x.set.Usable) :
    replace rule ts x = .ok (Reseed.replace rule ts x) ∧ (Reseed.replace rule ts x).set.Usable := by
  have hshape : ∀ y : Reseed.Changed α, x.set.SameShape y.set → x.set.SameShape (Reseed.replace rule ts y).set :=
    fun y hy => Reseed.replace_induct (fun _ _ _ _ h => h.changeColor _ _ _) hy rule ts
  refine ⟨?_, (hshape x (.refl _)).usable hs⟩
  rw [replace, Reseed.replace]
  split
  · rfl
  have hlen := Fit.length_assignment none ts x.set
  have ha := Fit.assignment_lt none ts hs.size_pos
  have hassigned : Fit.assignment none ts x.set = (Fit.errors none ts x.set).map fun row => (Fit.choose row).1 := by
    simp [Fit.assignment, Fit.assign, Function.comp_def]
  have hcolors := Reseed.reseedColors_induct (I := x.set.SameShape) (fun _ _ _ _ h => h.changeColor _ _ _) (.refl x.set)
    rule.colorFactor ts (Fit.assignment none ts x.set)
  rw [errors_eq_ok none hts hs, ok_bind, mapM_eq_ok fun row hrow => least_eq_ok (errors_row_ne_nil none hs hrow), ok_bind]
  show (reseedColors rule.colorFactor ts (Fit.assignment none ts x.set) x >>= _) = _
  rw [reseedColors_eq_ok rule.colorFactor hts.inOrder hs hlen ha, ok_bind]
  dsimp only
  rw [← hassigned]
  split
  · rename_i hsize
    exact reseedWeakest_eq_ok rule.paletteFactor hts hlen ha hsize hcolors
  · rfl

end ReseedingPalettes

end Guarded

end Tessera
