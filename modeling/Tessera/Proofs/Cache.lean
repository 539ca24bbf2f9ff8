import Mathlib
import Tessera.Proofs.Fit
import Tessera.Proofs.Palettes
import Tessera.Proofs.Sums
/-!
# Remembered errors

A cell of a cache that belongs to the present version of its palette holds an error of its tile under the present colours
of that palette (`Cache.Valid`). Asking for the best palette of a tile and marking what a move has changed keep this.

It is *an* error: the costs of a tile are added from the left when several palettes are looked at together and pairwise
when one palette has moved since (`Fit.IsError`). Where the two sums are one number, learning with remembered errors takes
every sample to the palette that learning without them takes it to, and moves the same colour (`foldl_moveCachedAt_eq`).
Floating-point sums of eight costs need not be one number (`run_ne_runUncached`).
-/

namespace Tessera

/-- Scalars whose zero is not below itself. -/
class Scalar.ProperZero (α : Type) [Scalar α] : Prop where
  zero_not_lt : ¬ (Scalar.ofNat 0 : α) < Scalar.ofNat 0

instance : Scalar.ProperZero Float := ⟨by decide +kernel⟩

instance : Scalar.ProperZero Rat := ⟨lt_irrefl _⟩

variable {α : Type} [Scalar α]

/-! ## What a write leaves alone -/

omit [Scalar α] in
/-- Writing to a slot that is not shared changes one palette at most. -/
theorem PaletteSet.candidatesOf_changeColor (s : PaletteSet α) {p q slot : Nat} (f : Rgb α → Rgb α)
    (hshared : ¬ s.isShared slot) (hq : q ≠ p) : (s.changeColor p slot f).candidatesOf q = s.candidatesOf q := by
  rw [changeColor]
  split
  · rfl
  · have hget : (s.palettes.modify p fun v => modifySlot v slot f)[q]? = s.palettes[q]? := by
      rw [List.getElem?_modify]
      simp [Ne.symm hq]
    rw [candidatesOf_eq_elim, candidatesOf_eq_elim]
    exact congrArg (fun x => Option.elim x [] fun v => v.toList.drop s.firstCandidate) hget

/-! ## The two sums -/

/-- An error of a tile under candidates: its costs, added in one of the two orders. -/
def Fit.IsError (tile : Tile) (candidates : List (Rgb α)) (e : α) : Prop :=
  e = Scalar.sum (tileCosts tile candidates) ∨ e = Scalar.pairwiseSum (tileCosts tile candidates)

theorem Fit.isError_columnSum (columns : Nat) (tile : Tile) (candidates : List (Rgb α)) :
    IsError tile candidates (Scalar.columnSum columns (tileCosts tile candidates)) := by
  rw [Scalar.columnSum]
  split
  · exact .inr rfl
  · exact .inl rfl

namespace Cache

/-- Where remembered errors are the errors: with a single palette, which is best without any, with tiles of fewer than eight
colours, and in arithmetic whose sums do not depend on the order. -/
def Faithful (ts : TileSet) (s : PaletteSet α) : Prop :=
  s.size = 1 ∨ (∀ tile ∈ ts.tiles, tile.histogram.length < 8) ∨ ∀ xs : List α, Scalar.pairwiseSum xs = Scalar.sum xs

variable {ts : TileSet} {s t : PaletteSet α} {c : Cache α}

theorem Faithful.of_size (h : Faithful ts s) (hsize : t.size = s.size) : Faithful ts t := by
  rw [Faithful, hsize]
  exact h

theorem Faithful.eq_tileError (h : Faithful ts s) (hsize : s.size ≠ 1) {tile : Tile} (htile : tile ∈ ts.tiles)
    {candidates : List (Rgb α)} {e : α} (he : Fit.IsError tile candidates e) : e = Fit.tileError tile candidates := by
  rcases he with he | he
  · exact he
  · rcases h with hone | hfew | hexact
    · exact absurd hone hsize
    · have hlength : (Fit.tileCosts tile candidates).length < 8 := by
        simpa [Fit.tileCosts, TileSet.tileEntries] using hfew tile htile
      exact he.trans (Scalar.pairwiseSum_of_length_lt hlength)
    · exact he.trans (hexact _)

/-! ## What a cell holds -/

/-- The cache knows nothing about a tile and a palette, or an error of an older version, or a present error. -/
def CellValid (version : Nat) (isError : α → Prop) : Option (Nat × α) → Prop
  | none => True
  | some (v, e) => v ≤ version ∧ (v = version → isError e)

/-- A cache that belongs to tiles and palettes. -/
structure Valid (ts : TileSet) (s : PaletteSet α) (c : Cache α) : Prop where
  version_length : c.version.length = s.size
  cells_length : c.cells.length = ts.tiles.length
  row_length : ∀ row ∈ c.cells, row.length = s.size
  cell : ∀ (t p : Nat) (tile : Tile) (row : List (Option (Nat × α))) (x : Option (Nat × α)) (v : Nat),
    ts.tiles[t]? = some tile → c.cells[t]? = some row → row[p]? = some x → c.version[p]? = some v →
    CellValid v (Fit.IsError tile (s.candidatesOf p)) x

theorem empty_valid (ts : TileSet) (s : PaletteSet α) : Valid ts s (Cache.empty ts.tiles.length s.size) := by
  refine ⟨by simp [empty], by simp [empty], fun row h => ?_, fun t p tile row x v _ hrow hx _ => ?_⟩
  · rw [List.eq_of_mem_replicate h, List.length_replicate]
  · rw [List.eq_of_mem_replicate (List.mem_of_getElem? hrow)] at hx
    rw [List.eq_of_mem_replicate (List.mem_of_getElem? hx)]
    trivial

omit [Scalar α] in
theorem CellValid.succ {v : Nat} {e e' : α → Prop} {x : Option (Nat × α)} (h : CellValid v e x) :
    CellValid (v + 1) e' x := by
  cases x with
  | none => trivial
  | some x => exact ⟨Nat.le_succ_of_le h.1, fun hv => absurd h.1 (by omega)⟩

/-- A move that changes one palette at most is marked by that palette's version. -/
theorem Valid.touch (h : c.Valid ts s) (p : Nat) (hsize : t.size = s.size)
    (hkeep : ∀ q, q ≠ p → t.candidatesOf q = s.candidatesOf q) : (c.touch p).Valid ts t := by
  refine ⟨?_, h.cells_length, fun row hr => (h.row_length row hr).trans hsize.symm, ?_⟩
  · rw [hsize, ← h.version_length]
    exact List.length_modify ..
  · intro u q tile row x v htile hrow hx hv
    rw [Cache.touch, List.getElem?_modify] at hv
    obtain ⟨w, hw, rfl⟩ := Option.map_eq_some_iff.1 hv
    have hcell := h.cell u q tile row x w htile hrow hx hw
    split
    · exact hcell.succ
    · rename_i hq
      rw [hkeep q (Ne.symm hq)]
      exact hcell

/-- A move that changes all palettes is marked by all versions. -/
theorem Valid.touchAll (h : c.Valid ts s) (hsize : t.size = s.size) : c.touchAll.Valid ts t := by
  refine ⟨?_, h.cells_length, fun row hr => (h.row_length row hr).trans hsize.symm, ?_⟩
  · rw [hsize, ← h.version_length]
    exact List.length_map ..
  · intro u q tile row x v htile hrow hx hv
    rw [Cache.touchAll, List.getElem?_map] at hv
    obtain ⟨w, hw, rfl⟩ := Option.map_eq_some_iff.1 hv
    exact (h.cell u q tile row x w htile hrow hx hw).succ

/-! ## Asking -/

/-- A valid cell is brought up to date to a present error. -/
theorem refreshCell_eq (columns : Nat) {tile : Tile} {cs : List (Rgb α)} {v : Nat} {x : Option (Nat × α)}
    (h : CellValid v (Fit.IsError tile cs) x) :
    ∃ e, refreshCell columns tile cs v x = some (v, e) ∧ Fit.IsError tile cs e := by
  rw [refreshCell]
  split
  · exact ⟨_, rfl, Fit.isError_columnSum columns tile cs⟩
  · rename_i hfresh
    match x with
    | none => simp [isStale] at hfresh
    | some (w, e) =>
      have hw : w = v := by simpa [isStale] using hfresh
      exact ⟨e, by rw [hw], h.2 hw⟩

/-- A row of a valid cache is brought up to date to errors of its tile. -/
theorem Valid.refreshRow_getElem? (h : c.Valid ts s) {u : Nat} {tile : Tile} {row : List (Option (Nat × α))}
    (htile : ts.tiles[u]? = some tile) (hrow : c.cells[u]? = some row) {p : Nat} (hp : p < s.size) :
    ∃ v e, c.version[p]? = some v ∧ (refreshRow tile s c.version row)[p]? = some (some (v, e)) ∧
      Fit.IsError tile (s.candidatesOf p) e := by
  have hv := List.getElem?_eq_getElem (l := c.version) (i := p) (by rw [h.version_length]; exact hp)
  have hx := List.getElem?_eq_getElem (l := row) (i := p)
    (by rw [h.row_length row (List.mem_of_getElem? hrow)]; exact hp)
  have hcell := h.cell u p tile row _ _ htile hrow hx hv
  obtain ⟨e, hrefresh, he⟩ := refreshCell_eq (staleCount c.version row) hcell
  have hzip : (c.version.zip row)[p]? = some (_, _) := List.getElem?_zip_eq_some.2 ⟨hv, hx⟩
  refine ⟨_, e, hv, ?_, he⟩
  rw [refreshRow, List.getElem?_map, List.getElem?_zipIdx, hzip]
  simp only [Option.map_some, Nat.zero_add, hrefresh]

theorem Valid.refreshRow_cell (h : c.Valid ts s) {u : Nat} {tile : Tile} {row : List (Option (Nat × α))}
    (htile : ts.tiles[u]? = some tile) (hrow : c.cells[u]? = some row) {p v : Nat} {x : Option (Nat × α)}
    (hx : (refreshRow tile s c.version row)[p]? = some x) (hv : c.version[p]? = some v) :
    CellValid v (Fit.IsError tile (s.candidatesOf p)) x := by
  have hp : p < s.size := by
    rw [← h.version_length]
    exact (List.getElem?_eq_some_iff.1 hv).1
  obtain ⟨w, e, hw, hcell, he⟩ := h.refreshRow_getElem? htile hrow hp
  rw [hv] at hw
  rw [hx] at hcell
  cases hw
  cases hcell
  exact ⟨Nat.le_refl _, fun _ => he⟩

theorem refreshRow_length (tile : Tile) {row : List (Option (Nat × α))} (hv : c.version.length = s.size)
    (hr : row.length = s.size) : (refreshRow tile s c.version row).length = s.size := by
  simp [refreshRow, hv, hr]

theorem Valid.map_cellError_refreshRow (h : c.Valid ts s) {u : Nat} {tile : Tile} {row : List (Option (Nat × α))}
    (htile : ts.tiles[u]? = some tile) (hrow : c.cells[u]? = some row) :
    List.Forall₂ (Fit.IsError tile) s.candidates ((refreshRow tile s c.version row).map cellError) := by
  have hlength := refreshRow_length tile h.version_length (h.row_length row (List.mem_of_getElem? hrow))
  rw [List.forall₂_iff_get]
  refine ⟨by rw [List.length_map, s.length_candidates, hlength], fun p hp hp' => ?_⟩
  obtain ⟨v, e, -, hcell, he⟩ := h.refreshRow_getElem? htile hrow (hp.trans_eq s.length_candidates)
  have hcandidates := s.candidates_getElem? (hp.trans_eq s.length_candidates)
  have herror : ((refreshRow tile s c.version row).map cellError)[p]? = some e := by
    rw [List.getElem?_map, hcell]
    rfl
  rw [List.get_eq_getElem, List.get_eq_getElem, (List.getElem?_eq_some_iff.1 hcandidates).2,
    (List.getElem?_eq_some_iff.1 herror).2]
  exact he

/-- Asking a valid cache gives the first least of present errors. -/
theorem Valid.best_least (h : c.Valid ts s) {u : Nat} {tile : Tile} (htile : ts.tiles[u]? = some tile) :
    ∃ errors, List.Forall₂ (Fit.IsError tile) s.candidates errors ∧ (c.best ts u s).1 = Pick.argLeast errors := by
  have hu : u < c.cells.length := by
    rw [h.cells_length]
    exact (List.getElem?_eq_some_iff.1 htile).1
  have hrow := List.getElem?_eq_getElem hu
  refine ⟨_, h.map_cellError_refreshRow htile hrow, ?_⟩
  rw [best]
  by_cases hone : s.size = 1
  · -- the first of one error is the first palette
    have hlength := refreshRow_length tile h.version_length (h.row_length _ (List.mem_of_getElem? hrow))
    rw [hone] at hlength
    obtain ⟨cell, hcell⟩ := List.length_eq_one_iff.1 hlength
    rw [if_pos hone, hcell]
    rfl
  · simp only [if_neg hone, htile, hrow]

theorem Faithful.errors_eq (h : Faithful ts s) (hsize : s.size ≠ 1) {tile : Tile} (htile : tile ∈ ts.tiles)
    {candidates : List (List (Rgb α))} {errors : List α} (he : List.Forall₂ (Fit.IsError tile) candidates errors) :
    errors = candidates.map (Fit.tileError tile) := by
  induction he with
  | nil => rfl
  | cons herror _ ih => rw [List.map_cons, ← ih, h.eq_tileError hsize htile herror]

/-- Where remembered errors are the errors, asking a valid cache gives the best palette. A tile without colours has the same
error under all palettes, so the first one is taken there too. -/
theorem Valid.best_fst [Scalar.ProperZero α] (h : c.Valid ts s) (hs : Faithful ts s) (u : Nat) :
    (c.best ts u s).1 = Fit.bestPalette ts u s := by
  by_cases hone : s.size = 1
  · rw [best, Fit.bestPalette, if_pos hone, if_pos hone]
  cases htile : ts.tiles[u]? with
  | none => rw [best, Fit.bestPalette, if_neg hone, if_neg hone, htile]
  | some tile =>
    obtain ⟨errors, herrors, hbest⟩ := h.best_least htile
    rw [hbest, hs.errors_eq hone (List.mem_of_getElem? htile) herrors, Fit.bestPalette, if_neg hone, htile]
    dsimp only
    split
    · rename_i hempty
      have hzero : s.candidates.map (Fit.tileError tile) = List.replicate s.candidates.length (Scalar.ofNat 0) := by
        rw [List.eq_replicate_iff]
        refine ⟨by simp, fun e he => ?_⟩
        obtain ⟨cs, -, rfl⟩ := List.mem_map.1 he
        rw [Fit.tileError, Fit.tileCosts, TileSet.tileEntries, List.isEmpty_iff.1 hempty]
        rfl
      rw [hzero, Pick.argLeast_replicate Scalar.ProperZero.zero_not_lt]
    · rfl

/-- Asking keeps a cache valid. -/
theorem Valid.best_snd (h : c.Valid ts s) (u : Nat) : (c.best ts u s).2.Valid ts s := by
  rw [best]
  split
  · exact h
  split
  · rename_i tile row htile hrow
    have hlen := h.row_length row (List.mem_of_getElem? hrow)
    refine ⟨h.version_length, by rw [List.length_set, h.cells_length], fun r hr => ?_, ?_⟩
    · rcases List.mem_or_eq_of_mem_set hr with hr | rfl
      · exact h.row_length r hr
      · exact refreshRow_length tile h.version_length hlen
    · intro w p tile' row' x v htile' hrow' hx hv
      rw [List.getElem?_set] at hrow'
      split at hrow'
      · rename_i huw
        subst huw
        split at hrow'
        · cases hrow'
          rw [htile] at htile'
          cases htile'
          exact h.refreshRow_cell htile hrow hx hv
        · cases hrow'
      · exact h.cell w p tile' row' x v htile' hrow' hx hv
  · exact h

end Cache

/-! ## Learning with and without a cache -/

namespace Learn

/-- Applies the sample with a number, working out all errors anew; there may be none. -/
def moveAt (ts : TileSet) (s : PaletteSet α) (i : Nat) (rate : α) : PaletteSet α :=
  match ts.samples[i]? with
  | some x => move ts s x rate
  | none => s

/-- Applies samples in order, working out all errors anew for each. -/
def runUncached (ts : TileSet) (s : PaletteSet α) (steps : List (Nat × α)) : PaletteSet α :=
  steps.foldl (fun s step => moveAt ts s step.1 step.2) s

/-- The palettes and the cache after samples in order, starting with nothing remembered. -/
def runCached (ts : TileSet) (s : PaletteSet α) (steps : List (Nat × α)) : Cached α :=
  steps.foldl (fun s step => moveCachedAt ts s step.1 step.2) ⟨s, Cache.empty ts.tiles.length s.size⟩

variable {ts : TileSet}

/-- One sample keeps a cache valid. -/
theorem moveCached_valid {s : Cached α} (h : s.cache.Valid ts s.set) (x : Sample) (rate : α) :
    (moveCached ts s x rate).cache.Valid ts (moveCached ts s x rate).set := by
  simp only [moveCached, touched, moveIn, PaletteSet.moveColor]
  split
  · exact (h.best_snd x.tile).touchAll (PaletteSet.changeColor_size _ _ _ _)
  · rename_i hshared
    exact (h.best_snd x.tile).touch _ (PaletteSet.changeColor_size _ _ _ _)
      fun q hq => s.set.candidatesOf_changeColor _ hshared hq

theorem moveCachedAt_valid {s : Cached α} (h : s.cache.Valid ts s.set) (i : Nat) (rate : α) :
    (moveCachedAt ts s i rate).cache.Valid ts (moveCachedAt ts s i rate).set := by
  rw [moveCachedAt]
  cases ts.samples[i]? with
  | none => exact h
  | some x => exact moveCached_valid h x rate

/-- Samples in order keep a cache valid. -/
theorem foldl_moveCachedAt_valid (steps : List (Nat × α)) {s : Cached α} (h : s.cache.Valid ts s.set) :
    (steps.foldl (fun s step => moveCachedAt ts s step.1 step.2) s).cache.Valid ts
      (steps.foldl (fun s step => moveCachedAt ts s step.1 step.2) s).set := by
  induction steps generalizing s with
  | nil => exact h
  | cons step steps ih => exact ih (moveCachedAt_valid h step.1 step.2)

theorem moveAt_size (s : PaletteSet α) (i : Nat) (rate : α) : (moveAt ts s i rate).size = s.size := by
  rw [moveAt]
  cases ts.samples[i]? with
  | none => rfl
  | some x => exact PaletteSet.changeColor_size _ _ _ _

theorem runUncached_size (s : PaletteSet α) (steps : List (Nat × α)) : (runUncached ts s steps).size = s.size := by
  induction steps generalizing s with
  | nil => rfl
  | cons step steps ih => exact (ih _).trans (moveAt_size s step.1 step.2)

variable [Scalar.ProperZero α]

/-- Where remembered errors are the errors, one sample moves the palettes as without a cache. -/
theorem moveCachedAt_eq {s : Cached α} (h : s.cache.Valid ts s.set) (hs : Cache.Faithful ts s.set) (i : Nat) (rate : α) :
    (moveCachedAt ts s i rate).set = moveAt ts s.set i rate := by
  rw [moveCachedAt, moveAt]
  cases ts.samples[i]? with
  | none => rfl
  | some x => simp only [moveCached, move, h.best_fst hs x.tile]

/-- And so do samples in order. -/
theorem foldl_moveCachedAt_eq (steps : List (Nat × α)) {s : Cached α} (h : s.cache.Valid ts s.set)
    (hs : Cache.Faithful ts s.set) :
    (steps.foldl (fun s step => moveCachedAt ts s step.1 step.2) s).set = runUncached ts s.set steps := by
  induction steps generalizing s with
  | nil => rfl
  | cons step steps ih =>
    have hset := moveCachedAt_eq h hs step.1 step.2
    have hsize : (moveCachedAt ts s step.1 step.2).set.size = s.set.size := by rw [hset, moveAt_size]
    rw [List.foldl_cons, ih (moveCachedAt_valid h step.1 step.2) (hs.of_size hsize), hset]
    rfl

/-- A run that begins with nothing remembered. -/
theorem run_eq_foldl (s : PaletteSet α) (hs : Cache.Faithful ts s) (steps : List (Nat × α)) :
    run ts s steps = runUncached ts s steps :=
  foldl_moveCachedAt_eq steps (s := ⟨s, Cache.empty ts.tiles.length s.size⟩) (Cache.empty_valid ts s) hs

/-- **What a cache changes.** After every sample it names the first least of present errors of a tile, each of them the costs
of the tile added in one of two orders. Where remembered errors are the errors, the cache changes nothing: after every
sample the palettes are those that learning without a cache comes to, and the cache names the best palette of every tile. -/
theorem run_eq_runUncached (ts : TileSet) (s : PaletteSet α) (steps : List (Nat × α)) (n : Nat) :
    (runCached ts s (steps.take n)).set = run ts s (steps.take n) ∧
    (∀ t tile, ts.tiles[t]? = some tile →
      ∃ errors, List.Forall₂ (Fit.IsError tile) (run ts s (steps.take n)).candidates errors ∧
        ((runCached ts s (steps.take n)).cache.best ts t (run ts s (steps.take n))).1 = Pick.argLeast errors) ∧
    (Cache.Faithful ts s →
      run ts s (steps.take n) = runUncached ts s (steps.take n) ∧
        ∀ t, ((runCached ts s (steps.take n)).cache.best ts t (run ts s (steps.take n))).1 =
          Fit.bestPalette ts t (run ts s (steps.take n))) := by
  have hvalid := foldl_moveCachedAt_valid (steps.take n)
    (s := ⟨s, Cache.empty ts.tiles.length s.size⟩) (Cache.empty_valid ts s)
  refine ⟨rfl, fun t tile htile => hvalid.best_least htile, fun hs => ?_⟩
  have hrun := run_eq_foldl s hs (steps.take n)
  have hsize : (run ts s (steps.take n)).size = s.size := by rw [hrun, runUncached_size]
  exact ⟨hrun, fun t => hvalid.best_fst (hs.of_size hsize) t⟩

/-- Three samples of a tile set with an empty tile, under a shared colour in exact arithmetic, and under floating-point
palettes for tiles of two colours. -/
theorem run_eq_runUncached_small :
    let ts : TileSet := ⟨1, 2, 1, 2, [⟨0, 0, 0, 1, 2, [(⟨10, 20, 30⟩, 1), (⟨11, 0, 90⟩, 1)]⟩, ⟨1, 1, 0, 1, 2, []⟩],
      #[⟨⟨10, 20, 30⟩, 0⟩, ⟨⟨11, 0, 90⟩, 0⟩]⟩
    let steps : List (Nat × Rat) := [(0, 1 / 2), (1, 1 / 4), (0, 1 / 8)]
    let s : PaletteSet Rat := ⟨.shared, 2, [#v[⟨5, 5, 5⟩, ⟨9, 9, 9⟩], #v[⟨5, 5, 5⟩, ⟨200, 0, 0⟩]]⟩
    let floats : PaletteSet Float := ⟨.unique, 1, [#v[⟨0.5, 1.5, 2⟩], #v[⟨0, 0.1, 1⟩]]⟩
    run ts s (steps.take 2) = runUncached ts s (steps.take 2) ∧
      ((runCached ts s (steps.take 2)).cache.best ts 1 (run ts s (steps.take 2))).1 =
        Fit.bestPalette ts 1 (run ts s (steps.take 2)) ∧
      run ts floats [(1, 0.3)] = runUncached ts floats [(1, 0.3)] := by
  intro ts steps s floats
  obtain ⟨hrun, hbest⟩ := (run_eq_runUncached ts s steps 2).2.2 (.inr (.inr Scalar.pairwiseSum_eq_sum))
  have hfew : ∀ tile ∈ ts.tiles, tile.histogram.length < 8 := by decide
  exact ⟨hrun, hbest 1, ((run_eq_runUncached ts floats [(1, 0.3)] 1).2.2 (.inr (.inl hfew))).1⟩

/-- A tile of eight reds. -/
def eightReds : TileSet :=
  ⟨1, 1, 8, 1, [⟨0, 0, 0, 8, 1, (List.range 8).map fun r => (⟨r.toUInt8, 0, 0⟩, 1)⟩],
    ((List.range 8).map fun r => ⟨⟨r.toUInt8, 0, 0⟩, 0⟩).toArray⟩

/-- Two palettes of one red. -/
def twoReds : PaletteSet Float := ⟨.unique, 1, [#v[⟨1.6, 0, 0⟩], #v[⟨1.6, 0, 0⟩]]⟩

/-- Which of the palettes are darker than these. -/
def darkened (s : PaletteSet Float) : List Bool := s.candidates.map fun cs => cs.all fun c => c.r < 1.5

/-- Eight costs are enough for a cache to be told from none. A move that moves nothing leaves one column to work out anew,
the pairwise sum of its costs is greater than their sum from the left, and so the other one of two equal palettes is best. -/
theorem run_ne_runUncached :
    ((runCached eightReds twoReds [(0, 0)]).cache.best eightReds 0 (run eightReds twoReds [(0, 0)])).1 = 1 ∧
      Fit.bestPalette eightReds 0 (run eightReds twoReds [(0, 0)]) = 0 ∧
      darkened (run eightReds twoReds [(0, 0), (0, 0.5)]) = [false, true] ∧
      darkened (runUncached eightReds twoReds [(0, 0), (0, 0.5)]) = [true, false] ∧
      run eightReds twoReds [(0, 0), (0, 0.5)] ≠ runUncached eightReds twoReds [(0, 0), (0, 0.5)] := by
  have hcached : darkened (run eightReds twoReds [(0, 0), (0, 0.5)]) = [false, true] := by decide +kernel
  have huncached : darkened (runUncached eightReds twoReds [(0, 0), (0, 0.5)]) = [true, false] := by decide +kernel
  refine ⟨by decide +kernel, by decide +kernel, hcached, huncached, fun h => ?_⟩
  rw [h, huncached] at hcached
  exact absurd hcached (by decide)

end Learn

end Tessera
