import Mathlib
import Tessera.Proofs.Agreement
import Tessera.Proofs.Cache
import Tessera.Proofs.Slots
/-!
# Guarded fits

The library works with total functions: a position beyond the end reads a default, a choice from nothing picks the first, a
division by nothing gives whatever the scalars say. Here the same work is done with guards. Every lookup is refused where
there is nothing to look up, every choice where there is nothing to choose from, every division by a count where the count is
zero, and sizes that have to agree are compared. Where palettes can be used (`PaletteSet.Usable`) and tiles are sound
(`TileSet.Sound`), no guard refuses anything, and the guarded work comes to what the library comes to: no default was used.
-/

namespace Tessera

/-- There are palettes, and pixels may use slots of them. -/
structure PaletteSet.Usable {α : Type} (s : PaletteSet α) : Prop where
  size_pos : 0 < s.size
  candidates_pos : 0 < s.candidateCount

/-- There are tiles, they stand at their own numbers, and all samples are theirs. -/
structure TileSet.Sound (ts : TileSet) : Prop where
  inOrder : ts.InOrder
  tiles_pos : 0 < ts.tiles.length
  sample_lt : ∀ x ∈ ts.samples, x.tile < ts.tiles.length

theorem PaletteSet.Usable.slots_pos {α : Type} {s : PaletteSet α} (hs : s.Usable) : 0 < s.slots :=
  Nat.lt_of_lt_of_le hs.candidates_pos (Nat.sub_le _ _)

theorem PaletteSet.SameShape.usable {α : Type} {s t : PaletteSet α} (h : s.SameShape t) (hs : s.Usable) : t.Usable :=
  ⟨h.size_eq ▸ hs.size_pos, h.candidateCount_eq ▸ hs.candidates_pos⟩

namespace Guarded

variable {β δ σ : Type}

/-! ## Guards -/

/-- The element at a position. -/
def item (xs : List β) (i : Nat) : Result β := (xs[i]?).elim (refuse .position) pure

/-- Whether sizes agree. -/
def fits (c : Bool) : Result Unit := if c then pure () else refuse .shape

/-- The remainder of a division. -/
def remainder (a n : Nat) : Result Nat := if n = 0 then refuse .division else pure (a % n)

theorem item_eq_ok {xs : List β} {i : Nat} {x : β} (h : xs[i]? = some x) : item xs i = .ok x := by
  rw [item, h]
  rfl

theorem item_getD {xs : List β} {i : Nat} (h : i < xs.length) (x : β) : item xs i = .ok (xs.getD i x) := by
  apply item_eq_ok
  simp [h]

theorem fits_eq_ok {c : Bool} (h : c = true) : fits c = .ok () := by
  rw [fits, if_pos h]
  rfl

theorem remainder_eq_ok (a : Nat) {n : Nat} (h : 0 < n) : remainder a n = .ok (a % n) := by
  rw [remainder, if_neg h.ne']
  rfl

@[simp] theorem ok_bind (x : β) (f : β → Result δ) : ((.ok x : Result β) >>= f) = f x := rfl

/-- Many results, when each is there. -/
theorem mapM_eq_ok {f : β → Result δ} {g : β → δ} {l : List β} (h : ∀ x ∈ l, f x = .ok (g x)) :
    l.mapM f = .ok (l.map g) := by
  induction l with
  | nil => rfl
  | cons x l ih =>
    rw [List.mapM_cons, h x List.mem_cons_self, ih fun y hy => h y (List.mem_cons_of_mem x hy)]
    rfl

/-- One result after the other, when an invariant makes each of them be there. -/
theorem foldlM_eq_ok {f : σ → β → Result σ} {g : σ → β → σ} (I : σ → Prop) {l : List β}
    (hstep : ∀ s x, x ∈ l → I s → f s x = .ok (g s x) ∧ I (g s x)) {s : σ} (hs : I s) :
    l.foldlM f s = .ok (l.foldl g s) ∧ I (l.foldl g s) := by
  induction l generalizing s with
  | nil => exact ⟨rfl, hs⟩
  | cons x l ih =>
    obtain ⟨hx, hnext⟩ := hstep s x List.mem_cons_self hs
    rw [List.foldlM_cons, hx, ok_bind, List.foldl_cons]
    exact ih (fun t y hy => hstep t y (List.mem_cons_of_mem x hy)) hnext

variable {α : Type}

/-! ## Palettes -/

section Palettes

variable {s : PaletteSet α} {p slot : Nat}

/-- The candidates of a palette. -/
def candidates (s : PaletteSet α) (p : Nat) : Result (List (Rgb α)) := do
  let palette ← item s.palettes p
  pure (palette.toList.drop s.firstCandidate)

/-- The colour in a slot. -/
def color (s : PaletteSet α) (p slot : Nat) : Result (Rgb α) := do
  let palette ← item s.palettes p
  item palette.toList slot

/-- Changes the colour of a slot by the policy. -/
def change (s : PaletteSet α) (p slot : Nat) (f : Rgb α → Rgb α) : Result (PaletteSet α) :=
  if s.isFixed slot then pure s
  else if s.isShared slot then do
    let c ← color s 0 0
    pure (s.fillSlot 0 (f c))
  else do
    let _ ← color s p slot
    pure (s.modifyAt p slot f)

theorem candidates_eq_ok (hp : p < s.size) : candidates s p = .ok (s.candidatesOf p) := by
  have hget := List.getElem?_eq_getElem (l := s.palettes) hp
  rw [candidates, item_eq_ok hget, s.candidatesOf_eq_elim, hget]
  rfl

theorem color_eq_ok {c : Rgb α} (h : s.color? p slot = some c) : color s p slot = .ok c := by
  rw [s.color?_eq_bind] at h
  obtain ⟨v, hv, hc⟩ := Option.bind_eq_some_iff.1 h
  rw [color, item_eq_ok hv, ok_bind]
  exact item_eq_ok (by simpa using hc)

/-- A slot that there is can be changed. -/
theorem change_eq_ok (hp : p < s.size) (hslot : slot < s.slots) (f : Rgb α → Rgb α) :
    change s p slot f = .ok (s.changeColor p slot f) := by
  rw [change, PaletteSet.changeColor]
  by_cases hfixed : s.isFixed slot
  · rw [if_pos hfixed, if_pos hfixed]
    rfl
  rw [if_neg hfixed, if_neg hfixed]
  by_cases hshared : s.isShared slot
  · obtain ⟨c, hc⟩ := s.exists_color? (Nat.zero_lt_of_lt hp) (Nat.zero_lt_of_lt hslot)
    rw [if_pos hshared, if_pos hshared, color_eq_ok hc, hc]
    rfl
  · obtain ⟨c, hc⟩ := s.exists_color? hp hslot
    rw [if_neg hshared, if_neg hshared, color_eq_ok hc]
    rfl

end Palettes

variable [Scalar α]

/-! ## Choices and quotients -/

/-- The first least element, with its position. -/
def least (xs : List α) : Result (Nat × α) := (Pick.least? xs).elim (refuse .choice) pure

/-- The first greatest element, with its position. -/
def greatest (xs : List α) : Result (Nat × α) := (Pick.greatest? xs).elim (refuse .choice) pure

/-- A part of a number of them. -/
def quotient (x : α) (n : Nat) : Result α := if n = 0 then refuse .division else pure (x / Scalar.ofNat n)

/-- The mean of a list. -/
def mean (xs : List α) : Result α := quotient (Scalar.pairwiseSum xs) xs.length

theorem choose_fst (xs : List α) : (Fit.choose xs).1 = Pick.argLeast xs := by
  rw [Fit.choose, Pick.argLeast]
  cases Pick.least? xs <;> rfl

theorem least_eq_ok {xs : List α} (h : xs ≠ []) : least xs = .ok (Fit.choose xs) := by
  obtain ⟨k, v, hk, -⟩ := Pick.exists_least? h
  rw [least, Fit.choose, hk]
  rfl

theorem quotient_eq_ok (x : α) {n : Nat} (h : 0 < n) : quotient x n = .ok (x / Scalar.ofNat n) := by
  rw [quotient, if_neg h.ne']
  rfl

theorem mean_eq_ok {xs : List α} (h : xs ≠ []) : mean xs = .ok (Scalar.mean xs) :=
  quotient_eq_ok _ (List.length_pos_iff.2 h)

/-! ## Mixes -/

/-- The mixes of two of the colours at the levels between the two. -/
def trials (rule : MixRule α) (point : Rgb α) (c d : Rgb α × Nat) : Result (List (Mix α)) :=
  (List.range' 1 (rule.levels - 1)).mapM fun k => do
    let t ← quotient (Scalar.ofNat k) rule.levels
    let penalty := Scalar.ratio 1 4 * (Scalar.ofNat 1 - rule.weight)
    pure ⟨point.sqDist (Mix.blend t c.1 d.1) + penalty * t * (Scalar.ofNat 1 - t) * d.1.sqDist c.1, c.2, d.2, k⟩

/-- The best mix of some colours. -/
def search (rule : MixRule α) (point : Rgb α) (colors : List (Rgb α)) : Result (Mix α) := do
  let near := Mix.nearestColors point colors
  let first ← item near 0
  let mixes ← (Mix.pairs (near.map Prod.snd)).mapM fun q => trials rule point q.1 q.2
  pure (mixes.flatten.foldl Mix.better ⟨first.1, first.2.2, first.2.2, 0⟩)

/-- Levels between two colours are there only when levels are. -/
theorem trials_eq_ok (rule : MixRule α) (point : Rgb α) (c d : Rgb α × Nat) :
    trials rule point c d = .ok (Mix.trials rule point c d) := by
  refine mapM_eq_ok fun k hk => ?_
  have hlevels : 0 < rule.levels := by
    have := List.mem_range'_1.1 hk
    omega
  rw [quotient_eq_ok _ hlevels]
  rfl

theorem search_eq_ok (rule : MixRule α) (point : Rgb α) {colors : List (Rgb α)} (h : colors ≠ []) :
    ∃ m, search rule point colors = .ok m ∧ Mix.search rule point colors = some m := by
  have hne : Mix.nearestColors point colors ≠ [] := Mix.nearestColors_ne_nil h
  obtain ⟨first, rest, hnear⟩ := List.exists_cons_of_ne_nil hne
  have hmixes := mapM_eq_ok (f := fun q : (Rgb α × Nat) × (Rgb α × Nat) => trials rule point q.1 q.2)
    (g := fun q => Mix.trials rule point q.1 q.2) (l := Mix.pairs ((first :: rest).map Prod.snd))
    fun q _ => trials_eq_ok rule point q.1 q.2
  refine ⟨((Mix.pairs ((first :: rest).map Prod.snd)).flatMap fun q => Mix.trials rule point q.1 q.2).foldl Mix.better
    ⟨first.1, first.2.2, first.2.2, 0⟩, ?_, ?_⟩
  · simp only [search, hnear, item_eq_ok (List.getElem?_cons_zero ..), ok_bind, hmixes, List.flatMap_def]
    rfl
  · rw [Mix.search, hnear]

/-! ## Errors of tiles -/

/-- The cost of showing a colour. -/
def cost (rule : Option (MixRule α)) (candidates : List (Rgb α)) (point : Rgb α) : Result α :=
  match rule with
  | none => do pure (← least (candidates.map point.sqDist)).2
  | some r => do pure (← search r point candidates).cost

/-- The cost of an entry under every palette. -/
def entryCosts (rule : Option (MixRule α)) (s : PaletteSet α) (e : Entry) : Result (List α) :=
  s.candidates.mapM fun cs => do pure ((← cost rule cs (Rgb.ofBytes e.color)) * Scalar.ofNat e.count)

/-- Sums the costs of the entries of one tile under one palette. -/
def tileSum (labelled : List (Entry × List α)) (t p : Nat) : Result α := do
  let costs ← (labelled.filter fun x => x.1.tile == t).mapM fun x => item x.2 p
  pure (Scalar.sum costs)

/-- The error of every tile under every palette. Every entry has to count for one of the tiles. -/
def errors (rule : Option (MixRule α)) (ts : TileSet) (s : PaletteSet α) : Result (List (List α)) := do
  let costs ← ts.entries.mapM (entryCosts rule s)
  fits (ts.entries.all fun e => e.tile < ts.tiles.length)
  (List.range ts.tiles.length).mapM fun t => (List.range s.size).mapM fun p => tileSum (ts.entries.zip costs) t p

/-- The palette of every tile with its error. -/
def assign (rule : Option (MixRule α)) (ts : TileSet) (s : PaletteSet α) : Result (List (Nat × α)) := do
  let rows ← errors rule ts s
  rows.mapM least

/-- The mean error of a pixel. -/
def meanError (rule : Option (MixRule α)) (ts : TileSet) (s : PaletteSet α) : Result α :=
  if ts.totalWeight = 0 then pure (Scalar.ofNat 0)
  else do
    let chosen ← assign rule ts s
    quotient (Scalar.pairwiseSum (chosen.map Prod.snd)) ts.totalWeight

theorem cost_eq_ok (rule : Option (MixRule α)) {cs : List (Rgb α)} (point : Rgb α) (h : cs ≠ []) :
    cost rule cs point = .ok (Fit.cost rule cs point) := by
  cases rule with
  | none =>
    have hne : cs.map point.sqDist ≠ [] := by simpa using h
    obtain ⟨k, v, hk, -⟩ := Pick.exists_least? hne
    rw [cost, Fit.cost, Fit.nearest?, least, hk]
    rfl
  | some r =>
    obtain ⟨m, hm, hsearch⟩ := search_eq_ok r point h
    rw [cost, hm, Fit.cost, hsearch]
    rfl

section Errors

variable (rule : Option (MixRule α)) {ts : TileSet} {s : PaletteSet α}

omit [Scalar α] in
theorem candidates_ne_nil (hs : s.Usable) {cs : List (Rgb α)} (h : cs ∈ s.candidates) : cs ≠ [] := by
  rw [s.candidates_eq_map] at h
  obtain ⟨p, hp, rfl⟩ := List.mem_map.1 h
  exact PaletteSet.candidatesOf_ne_nil (List.mem_range.1 hp) hs.candidates_pos

theorem entryCosts_eq_ok (hs : s.Usable) (e : Entry) : entryCosts rule s e = .ok (Fit.entryCosts rule s e) := by
  refine mapM_eq_ok fun cs hcs => ?_
  rw [cost_eq_ok rule _ (candidates_ne_nil hs hcs)]
  rfl

theorem tileSum_eq_ok {labelled : List (Entry × List α)} (t : Nat) {p : Nat}
    (h : ∀ x ∈ labelled, p < x.2.length) : tileSum labelled t p = .ok (Fit.tileSum labelled t p) := by
  have hcosts := mapM_eq_ok (f := fun x : Entry × List α => item x.2 p) (g := fun x => x.2.getD p (Scalar.ofNat 0))
    (l := labelled.filter fun x => x.1.tile == t) fun x hx => item_getD (h x (List.mem_of_mem_filter hx)) _
  rw [tileSum, hcosts]
  rfl

/-- **Errors under guard.** Sound tiles have their errors under palettes that can be used. -/
theorem errors_eq_ok (hts : ts.Sound) (hs : s.Usable) : errors rule ts s = .ok (Fit.errors rule ts s) := by
  have hall : (ts.entries.all fun e => e.tile < ts.tiles.length) = true := by
    simpa using fun e he => hts.inOrder.entry_lt he
  have hrows : ∀ x ∈ ts.entries.zip (ts.entries.map (Fit.entryCosts rule s)), x.2.length = s.size := by
    intro x hx
    obtain ⟨e, -, he⟩ := List.mem_map.1 (List.of_mem_zip hx).2
    rw [← he, Fit.entryCosts, List.length_map, s.length_candidates]
  rw [errors, mapM_eq_ok fun e _ => entryCosts_eq_ok rule hs e, ok_bind, fits_eq_ok hall, ok_bind, Fit.errors, Fit.errorsBy,
    Fit.allCosts_eq]
  refine mapM_eq_ok fun t _ => mapM_eq_ok fun p hp => tileSum_eq_ok t fun x hx => ?_
  rw [hrows x hx]
  exact List.mem_range.1 hp

theorem errors_row_ne_nil (hs : s.Usable) {row : List α} (h : row ∈ Fit.errors rule ts s) : row ≠ [] := by
  obtain ⟨t, -, rfl⟩ := List.mem_map.1 h
  have := hs.size_pos
  simp only [ne_eq, List.map_eq_nil_iff, List.range_eq_nil]
  omega

theorem assign_eq_ok (hts : ts.Sound) (hs : s.Usable) : assign rule ts s = .ok (Fit.assign rule ts s) := by
  rw [assign, errors_eq_ok rule hts hs, ok_bind]
  exact mapM_eq_ok fun row hrow => least_eq_ok (errors_row_ne_nil rule hs hrow)

theorem meanError_eq_ok (hts : ts.Sound) (hs : s.Usable) : meanError rule ts s = .ok (Fit.meanError rule ts s) := by
  rw [meanError, Fit.meanError]
  split
  · rfl
  · rename_i hweight
    rw [assign_eq_ok rule hts hs, ok_bind, quotient_eq_ok _ (Nat.pos_of_ne_zero hweight)]

end Errors

/-! ## Residuals -/

/-- The residual of an entry under one palette. -/
def residual (s : PaletteSet α) (p : Nat) (e : Entry) : Result (Residual α) := do
  let candidates ← candidates s p
  let order := Pick.ascending (candidates.map (Rgb.ofBytes e.color).sqDist)
  let nearest ← item order 0
  pure ⟨p, nearest.2 + s.firstCandidate, nearest.1, order.tail.head?.map Prod.fst⟩

/-- The entries with their residuals under an assignment. -/
def residuals (ts : TileSet) (s : PaletteSet α) (assigned : List Nat) : Result (Reseed.Residuals α) :=
  ts.entries.mapM fun e => do
    let p ← item assigned e.tile
    pure (e, ← residual s p e)

section Residuals

variable {ts : TileSet} {s : PaletteSet α} {p : Nat}

theorem ascending_ne_nil {xs : List α} (h : xs ≠ []) : Pick.ascending xs ≠ [] := by
  have hpos : 0 < xs.length := List.length_pos_iff.2 h
  rw [ne_eq, ← List.length_eq_zero_iff, Pick.ascending, List.length_mergeSort, List.length_zipIdx]
  omega

/-- An entry has a residual under a palette that can be used, and it names one of the slots. -/
theorem residual_eq_ok (hs : s.Usable) (hp : p < s.size) (e : Entry) :
    residual s p e = .ok (Residual.ofEntry s p e) ∧ (Residual.ofEntry s p e).palette = p ∧
      (Residual.ofEntry s p e).slot < s.slots := by
  have hne : (s.candidatesOf p).map (Rgb.ofBytes e.color).sqDist ≠ [] := by
    simpa using PaletteSet.candidatesOf_ne_nil hp hs.candidates_pos
  obtain ⟨first, rest, horder⟩ := List.exists_cons_of_ne_nil (ascending_ne_nil hne)
  have hplace : first.2 < s.candidateCount := by
    have hmem : first ∈ Pick.ascending ((s.candidatesOf p).map (Rgb.ofBytes e.color).sqDist) := by
      rw [horder]
      exact List.mem_cons_self
    have hlt := (List.mem_zipIdx (List.mem_mergeSort.1 hmem)).2.1
    rw [List.length_map, s.length_candidatesOf hp] at hlt
    omega
  have hcount : s.candidateCount = s.slots - s.firstCandidate := rfl
  simp only [residual, candidates_eq_ok hp, ok_bind, horder, item_eq_ok (List.getElem?_cons_zero ..), Residual.ofEntry,
    List.tail_cons]
  exact ⟨rfl, trivial, by omega⟩

theorem residuals_eq_ok (hts : ts.InOrder) (hs : s.Usable) {assigned : List Nat} (hlen : assigned.length = ts.tiles.length)
    (ha : ∀ p ∈ assigned, p < s.size) : residuals ts s assigned = .ok (Reseed.residuals ts s assigned) := by
  rw [Reseed.residuals_eq]
  refine mapM_eq_ok fun e he => ?_
  have hlt : e.tile < assigned.length := hlen ▸ hts.entry_lt he
  have hp : assigned.getD e.tile 0 < s.size := ha _ (by simp [hlt])
  rw [item_getD hlt 0, ok_bind, (residual_eq_ok hs hp e).1]
  rfl

/-- The residuals of sound tiles name slots that there are. -/
theorem fits_residuals_eq_ok (hts : ts.InOrder) (hs : s.Usable) {assigned : List Nat}
    (hlen : assigned.length = ts.tiles.length) (ha : ∀ p ∈ assigned, p < s.size) :
    fits ((Reseed.residuals ts s assigned).all fun x => decide (x.2.palette < s.size) && decide (x.2.slot < s.slots)) =
      .ok () := by
  refine fits_eq_ok (List.all_eq_true.2 ?_)
  intro x hx
  rw [Reseed.residuals_eq] at hx
  obtain ⟨e, he, rfl⟩ := List.mem_map.1 hx
  have hlt : e.tile < assigned.length := hlen ▸ hts.entry_lt he
  have hp : assigned.getD e.tile 0 < s.size := ha _ (by simp [hlt])
  obtain ⟨-, hpalette, hslot⟩ := residual_eq_ok hs hp e
  rw [Bool.and_eq_true, decide_eq_true_eq, decide_eq_true_eq, hpalette]
  exact ⟨hp, hslot⟩

end Residuals

/-! ## Learning from samples -/

/-- Applies one sample with remembered errors. -/
def move (ts : TileSet) (x : Learn.Cached α) (sample : Sample) (rate : α) : Result (Learn.Cached α) := do
  let best ← x.cache.bestAt ts sample.tile x.set
  let candidates ← candidates x.set best.1
  let nearest ← least (candidates.map (Rgb.ofBytes sample.color).sqDist)
  let slot := x.set.firstCandidate + nearest.1
  let set ← change x.set best.1 slot fun c => c.towards rate (Rgb.ofBytes sample.color)
  let cache ← Learn.touchedChecked best.2 x.set best.1 slot
  pure ⟨set, cache⟩

/-- Applies samples in order, each with its rate, starting with nothing remembered. -/
def learn (ts : TileSet) (s : PaletteSet α) (steps : List (Nat × α)) : Result (PaletteSet α) := do
  let start : Learn.Cached α := ⟨s, Cache.empty ts.tiles.length s.size⟩
  let x ← steps.foldlM (fun x step => do
    let sample ← item ts.samples.toList step.1
    move ts x sample step.2) start
  pure x.set

section Learning

variable {ts : TileSet} {s : PaletteSet α}

theorem best_lt {c : Cache α} (hc : c.Valid ts s) (hs : s.Usable) (t : Nat) : (c.best ts t s).1 < s.size := by
  rw [Cache.best]
  split
  · exact hs.size_pos
  split
  · rename_i tile row htile hrow
    have hlen := Cache.refreshRow_length tile hc.version_length (hc.row_length row (List.mem_of_getElem? hrow))
    have hne : (Cache.refreshRow tile s c.version row).map Cache.cellError ≠ [] := by
      rw [ne_eq, ← List.length_eq_zero_iff, List.length_map, hlen]
      exact hs.size_pos.ne'
    have hlt := Pick.argLeast_lt hne
    rwa [List.length_map, hlen] at hlt
  · exact hs.size_pos

/-- A cache that belongs to tiles and palettes has an answer for each of the tiles. -/
theorem bestAt_eq_ok {c : Cache α} (hc : c.Valid ts s) (hs : s.Usable) {t : Nat} (ht : t < ts.tiles.length) :
    c.bestAt ts t s = .ok (c.best ts t s) := by
  have hpos := hs.size_pos
  rw [Cache.bestAt]
  split
  · rename_i hone
    rw [Cache.best, if_pos hone]
    rfl
  · rw [Fit.position_natCast ht, ok_bind]
    have hstale : ((c.version.zip ((c.cells[t]?).getD [])).zipIdx.any fun x =>
        Cache.isStale x.1.1 x.1.2 && decide (s.size ≤ x.2)) = false := by
      rw [List.any_eq_false]
      intro x hx
      have hlt := (List.mem_zipIdx hx).2.1
      rw [List.length_zip] at hlt
      have hsize := hc.version_length
      simp only [Bool.and_eq_true, decide_eq_true_eq, not_and, not_le]
      intro _
      omega
    have hversion : c.version.isEmpty = false := by
      rw [List.isEmpty_eq_false_iff, ne_eq, ← List.length_eq_zero_iff, hc.version_length]
      omega
    show (if _ = true then _ else if _ = true then _ else _) = _
    rw [hstale, hversion]
    rfl

/-- One sample. -/
theorem move_eq_ok {x : Learn.Cached α} (hc : x.cache.Valid ts x.set) (hs : x.set.Usable) {sample : Sample}
    (ht : sample.tile < ts.tiles.length) (rate : α) : move ts x sample rate = .ok (Learn.moveCached ts x sample rate) := by
  have hbest := best_lt hc hs sample.tile
  have hne : (x.set.candidatesOf (x.cache.best ts sample.tile x.set).1).map (Rgb.ofBytes sample.color).sqDist ≠ [] := by
    simpa using PaletteSet.candidatesOf_ne_nil hbest hs.candidates_pos
  have hslot : x.set.firstCandidate + (Fit.choose ((x.set.candidatesOf (x.cache.best ts sample.tile x.set).1).map
      (Rgb.ofBytes sample.color).sqDist)).1 < x.set.slots := by
    have hlt := Fit.choose_fst_lt hne
    have hcount : x.set.candidateCount = x.set.slots - x.set.firstCandidate := rfl
    rw [List.length_map, x.set.length_candidatesOf hbest] at hlt
    omega
  have hversion : ¬ ((x.cache.best ts sample.tile x.set).2.version.length ≤ (x.cache.best ts sample.tile x.set).1) := by
    rw [(hc.best_snd sample.tile).version_length]
    omega
  rw [move, bestAt_eq_ok hc hs ht, ok_bind, candidates_eq_ok hbest, ok_bind, least_eq_ok hne, ok_bind]
  dsimp only
  rw [change_eq_ok hbest hslot, ok_bind, Learn.touchedChecked, if_neg fun h => hversion h.1, choose_fst]
  rfl

/-- **Learning under guard.** Samples that there are can be applied, one after the other. -/
theorem learn_eq_ok (hts : ts.Sound) (hs : s.Usable) {steps : List (Nat × α)}
    (hsteps : ∀ step ∈ steps, step.1 < ts.samples.size) : learn ts s steps = .ok (Learn.run ts s steps) := by
  have hfold := foldlM_eq_ok (f := fun (x : Learn.Cached α) (step : Nat × α) => do
      let sample ← item ts.samples.toList step.1
      move ts x sample step.2)
    (g := fun x step => Learn.moveCachedAt ts x step.1 step.2)
    (fun x => x.cache.Valid ts x.set ∧ s.SameShape x.set) (l := steps) ?_
    (s := ⟨s, Cache.empty ts.tiles.length s.size⟩) ⟨Cache.empty_valid ts s, .refl s⟩
  · rw [learn, hfold.1]
    rfl
  · rintro x step hstep ⟨hvalid, hshape⟩
    obtain ⟨sample, hget⟩ : ∃ sample, ts.samples[step.1]? = some sample :=
      ⟨_, Array.getElem?_eq_getElem (hsteps step hstep)⟩
    have hsample := hts.sample_lt _ (Array.mem_of_getElem? hget)
    have hmove := move_eq_ok hvalid (hshape.usable hs) hsample step.2
    have hat : Learn.moveCachedAt ts x step.1 step.2 = Learn.moveCached ts x sample step.2 := by
      rw [Learn.moveCachedAt, hget]
    refine ⟨?_, Learn.moveCachedAt_valid hvalid step.1 step.2, ?_⟩
    · rw [item_eq_ok (by simpa using hget), ok_bind, hmove, hat]
    · rw [hat]
      exact hshape.changeColor _ _ _

end Learning

end Guarded

end Tessera
