import Mathlib
import Tessera.Proofs.Batches
import Tessera.Proofs.Choice
/-!
# Errors of tiles, tile by tile

Errors are worked out in spans over the flat list of entries and summed by the number of the tile. `chunked_eq_map` drops
the spans, and `errors_eq` drops the flat list: for tiles that stand at their own numbers, the row of a tile has the cost
of the tile under each palette. An assignment names palettes that there are.
-/

namespace Tessera

namespace Span

variable {β γ : Type}

/-- The spans from a row on, laid end to end, are the rows from there on. -/
theorem flatMap_starting (size start stop : Nat) (hs : 0 < size) (rows : List β) (h : rows.length = stop) :
    ((starting size start stop).flatMap fun (a, b) => (rows.drop a).take (b - a)) = rows.drop start := by
  fun_induction starting size start stop with
  | case1 start hlt ih =>
    have hb : min (start + size) stop - start = min size (stop - start) := by omega
    have ht : (rows.drop start).take (min size (stop - start)) = (rows.drop start).take size := by
      rw [← List.take_take]
      exact congrArg _ (List.take_of_length_le (by simp [h]))
    rw [List.flatMap_cons, ih]
    simp only [hb, ht]
    rw [← List.drop_drop, List.take_append_drop]
  | case2 start hge =>
    have : stop ≤ start := by omega
    rw [List.drop_eq_nil_of_le (by omega)]; rfl

/-- Work that treats every row for itself does not depend on the spans. -/
theorem chunked_eq_map (size : Nat) (f : List β → List γ) (g : β → γ) (rows : List β)
    (h : ∀ span, (∀ x ∈ span, x ∈ rows) → f span = span.map g) : chunked size f rows = rows.map g := by
  have hf : ∀ a b, f ((rows.drop a).take (b - a)) = ((rows.drop a).take (b - a)).map g :=
    fun a b => h _ fun x hx => List.mem_of_mem_drop (List.mem_of_mem_take hx)
  have hs : 0 < (max 1 (size : Int)).toNat := by omega
  have key := flatMap_starting _ 0 rows.length hs rows rfl
  simp only [chunked, mapSpans, split, hf, Int.toNat_natCast]
  rw [List.drop_zero] at key
  conv_rhs => rw [← key]
  rw [List.map_flatMap, List.flatMap]

end Span

namespace PaletteSet

variable {α : Type}

theorem length_candidates (s : PaletteSet α) : s.candidates.length = s.size := by simp [candidates, size]

theorem candidatesOf_eq_elim (s : PaletteSet α) (p : Nat) :
    s.candidatesOf p = (s.palettes[p]?).elim [] fun v => v.toList.drop s.firstCandidate := by
  rw [candidatesOf]
  cases s.palettes[p]? <;> rfl

theorem candidates_getElem? (s : PaletteSet α) {p : Nat} (h : p < s.size) :
    s.candidates[p]? = some (s.candidatesOf p) := by
  have hp : p < s.palettes.length := h
  simp [candidates, candidatesOf_eq_elim, List.getElem?_eq_getElem hp]

theorem candidates_eq_map (s : PaletteSet α) : s.candidates = (List.range s.size).map s.candidatesOf := by
  apply List.ext_getElem?
  intro p
  by_cases hp : p < s.size
  · rw [s.candidates_getElem? hp, List.getElem?_map, List.getElem?_range hp]; rfl
  · rw [List.getElem?_eq_none (by rw [s.length_candidates]; omega), List.getElem?_eq_none (by simp; omega)]

/-- A palette that there is has as many candidates as the set says. -/
theorem length_candidatesOf (s : PaletteSet α) {p : Nat} (h : p < s.size) :
    (s.candidatesOf p).length = s.candidateCount := by
  have hp : p < s.palettes.length := h
  simp [candidatesOf_eq_elim, List.getElem?_eq_getElem hp, candidateCount]

theorem candidatesOf_ne_nil {s : PaletteSet α} {p : Nat} (h : p < s.size) (hc : 0 < s.candidateCount) :
    s.candidatesOf p ≠ [] := by
  intro h0
  have := s.length_candidatesOf h
  rw [h0, List.length_nil] at this
  omega

end PaletteSet

namespace TileSet

/-- Every tile of the set stands at its own number. -/
def InOrder (ts : TileSet) : Prop := ∀ (t : Nat) (tile : Tile), ts.tiles[t]? = some tile → tile.index = t

theorem ofBlocks_inOrder (rows cols tileWidth tileHeight : Nat) (blocks : List (List (Rgb UInt8 × Bool))) :
    (ofBlocks rows cols tileWidth tileHeight blocks).InOrder := by
  intro t tile h
  simp only [ofBlocks, List.getElem?_map, List.getElem?_zipIdx] at h
  obtain ⟨⟨cells, i⟩, hi, rfl⟩ := Option.map_eq_some_iff.1 h
  obtain ⟨row, -, hrow⟩ := Option.map_eq_some_iff.1 hi
  simp only [Prod.mk.injEq] at hrow
  simp [makeTile, ← hrow.2]

end TileSet

namespace Fit

variable {α : Type} [Scalar α]

/-- The cost of a tile under a list of candidates by a rule. -/
def tileCost (rule : Option (MixRule α)) (tile : Tile) (candidates : List (Rgb α)) : α :=
  Scalar.sum ((TileSet.tileEntries tile).map (entryCost rule candidates))

/-- Searching a span palette by palette gives every entry its own costs. -/
theorem spanCosts_eq_map (rule : Option (MixRule α)) (s : PaletteSet α) (es : List Entry) :
    spanCosts rule s es = es.map (entryCosts rule s) := by
  cases rule with
  | none => rfl
  | some r =>
    have hrow : ∀ e i, es[i]? = some e →
        ((s.candidates.map fun cs => ((Mix.searchEach r (es.map fun e => Rgb.ofBytes e.color) cs).map
          fun m => m.elim Scalar.infinite Mix.cost).toArray).map
            fun column => column.getD i Scalar.infinite * Scalar.ofNat e.count) = entryCosts (some r) s e := by
      intro e i hi
      rw [entryCosts, List.map_map]
      refine List.map_congr_left ?_
      intro cs _
      simp [Mix.searchEach_eq_map, Array.getD_eq_getD_getElem?, hi, entryCost, cost]
    show (es.zipIdx.map fun x => _) = _
    apply List.ext_getElem
    · simp
    · intro i h1 h2
      have hi : i < es.length := by simpa using h2
      simpa using hrow es[i] i (List.getElem?_eq_getElem hi)

theorem allCosts_eq (chunk : Nat) (rule : Option (MixRule α)) (ts : TileSet) (s : PaletteSet α) :
    allCosts chunk rule ts s = ts.entries.map (entryCosts rule s) :=
  Span.chunked_eq_map _ _ _ _ fun es _ => spanCosts_eq_map rule s es

/-- The sum of a tile takes the costs of the entries that carry its number. -/
theorem tileSum_eq (rule : Option (MixRule α)) (es : List Entry) (s : PaletteSet α) (t : Nat) {p : Nat}
    (hp : p < s.size) :
    tileSum (es.zip (es.map (entryCosts rule s))) t p =
      Scalar.sum ((es.filter fun e => e.tile == t).map (entryCost rule (s.candidatesOf p))) := by
  have hcost : ∀ e, (entryCosts rule s e).getD p (Scalar.ofNat 0) = entryCost rule (s.candidatesOf p) e := by
    intro e
    simp [entryCosts, List.getD, s.candidates_getElem? hp]
  have hzip : es.zip (es.map (entryCosts rule s)) = es.map fun e => (e, entryCosts rule s e) := by
    induction es with
    | nil => rfl
    | cons e es ih => rw [List.map_cons, List.zip_cons_cons, ih, List.map_cons]
  rw [tileSum, hzip, List.filter_map, List.map_map]
  congr 1
  exact List.map_congr_left fun e _ => hcost e

/-- The error of a tile under a palette is the sum over the entries with its number, whatever the spans. -/
theorem errorsBy_eq_sum (chunk : Nat) (rule : Option (MixRule α)) (ts : TileSet) (s : PaletteSet α) :
    errorsBy chunk rule ts s = (List.range ts.tiles.length).map fun t => (List.range s.size).map fun p =>
      Scalar.sum ((ts.entries.filter fun e => e.tile == t).map (entryCost rule (s.candidatesOf p))) := by
  simp only [errorsBy, allCosts_eq]
  refine List.map_congr_left ?_
  intro t _
  refine List.map_congr_left ?_
  intro p hp
  exact tileSum_eq rule ts.entries s t (List.mem_range.1 hp)

/-- Errors depend on the costs of colours under each palette alone. -/
theorem errors_congr (rule : Option (MixRule α)) (ts : TileSet) {s t : PaletteSet α} (hsize : t.size = s.size)
    (hcost : ∀ p < s.size, ∀ x, cost rule (t.candidatesOf p) x = cost rule (s.candidatesOf p) x) :
    errors rule ts t = errors rule ts s := by
  rw [errors, errors, errorsBy_eq_sum, errorsBy_eq_sum, hsize]
  refine List.map_congr_left fun i _ => List.map_congr_left fun p hp => ?_
  congr 1
  exact List.map_congr_left fun e _ => by rw [entryCost, entryCost, hcost p (List.mem_range.1 hp)]

omit [Scalar α] in
theorem tile_of_mem_tileEntries {tile : Tile} {e : Entry} (h : e ∈ TileSet.tileEntries tile) : e.tile = tile.index := by
  obtain ⟨c, -, rfl⟩ := List.mem_map.1 h
  rfl

omit [Scalar α] in
/-- Of lists end to end whose elements carry the number of their list, from `i` on, those with a number are the list in
that place. -/
theorem filter_flatMap_numbered {β γ : Type} (number : γ → Nat) (g : β → List γ) (xs : List β) (i t : Nat)
    (h : ∀ k x, xs[k]? = some x → ∀ y ∈ g x, number y = i + k) :
    (xs.flatMap g).filter (fun y => number y == i + t) = xs[t]?.elim [] g := by
  induction xs generalizing i t with
  | nil => rfl
  | cons x xs ih =>
    have hown : ∀ y ∈ g x, number y = i := h 0 x rfl
    have hrest : ∀ k x, xs[k]? = some x → ∀ y ∈ g x, number y = i + 1 + k := fun k x hk y hy => by
      rw [h (k + 1) x (by simpa using hk) y hy]; omega
    rw [List.flatMap_cons, List.filter_append]
    cases t with
    | zero =>
      have h0 : (xs.flatMap g).filter (fun y => number y == i + 0) = [] := by
        rw [List.filter_eq_nil_iff]
        intro y hy
        obtain ⟨x', hx', hy⟩ := List.mem_flatMap.1 hy
        obtain ⟨k, hk⟩ := List.mem_iff_getElem?.1 hx'
        simp only [hrest k x' hk y hy, beq_iff_eq]
        omega
      rw [h0, List.append_nil, List.filter_eq_self.2 fun y hy => by simp [hown y hy]]
      rfl
    | succ t =>
      have h0 : (g x).filter (fun y => number y == i + (t + 1)) = [] := by
        rw [List.filter_eq_nil_iff]
        intro y hy
        simp [hown y hy]
      have := ih (i + 1) t hrest
      rw [show i + 1 + t = i + (t + 1) by omega] at this
      rw [h0, List.nil_append, this, List.getElem?_cons_succ]

omit [Scalar α] in
/-- Of the entries of tiles that are numbered from `i` on, those with the number of a tile are the entries of that
tile. -/
theorem filter_tileEntries (tiles : List Tile) (i t : Nat)
    (h : ∀ k tile, tiles[k]? = some tile → tile.index = i + k) :
    (tiles.flatMap TileSet.tileEntries).filter (fun e => e.tile == i + t) =
      (tiles[t]?.elim [] TileSet.tileEntries) :=
  filter_flatMap_numbered Entry.tile TileSet.tileEntries tiles i t fun k tile hk _ he =>
    (tile_of_mem_tileEntries he).trans (h k tile hk)

/-- **Errors, tile by tile.** The error of a tile under a palette is the cost of its own entries. -/
theorem errorsBy_eq (chunk : Nat) (rule : Option (MixRule α)) {ts : TileSet} (s : PaletteSet α) (h : ts.InOrder) :
    errorsBy chunk rule ts s = ts.tiles.map fun tile => s.candidates.map (tileCost rule tile) := by
  apply List.ext_getElem
  · simp [errorsBy]
  intro t h1 h2
  have ht : t < ts.tiles.length := by simpa using h2
  have hown := filter_tileEntries ts.tiles 0 t fun k tile hk => by rw [h k tile hk]; omega
  rw [Nat.zero_add, List.getElem?_eq_getElem ht] at hown
  simp only [errorsBy_eq_sum, List.getElem_map, List.getElem_range, s.candidates_eq_map, List.map_map]
  refine List.map_congr_left fun p _ => ?_
  rw [TileSet.entries, hown]
  rfl

theorem errors_eq (rule : Option (MixRule α)) {ts : TileSet} (s : PaletteSet α) (h : ts.InOrder) :
    errors rule ts s = ts.tiles.map fun tile => s.candidates.map (tileCost rule tile) :=
  errorsBy_eq _ rule s h

/-! ## Assignments -/

theorem length_assignment (rule : Option (MixRule α)) (ts : TileSet) (s : PaletteSet α) :
    (assignment rule ts s).length = ts.tiles.length := by
  simp [assignment, assign, errors, errorsBy]

theorem choose_fst_lt {row : List α} (h : row ≠ []) : (choose row).1 < row.length := by
  obtain ⟨k, v, hk, hv⟩ := Pick.exists_least? h
  obtain ⟨hlt, -⟩ := List.getElem?_eq_some_iff.1 hv
  simpa [choose, hk] using hlt

/-- Tiles are assigned to palettes that there are. -/
theorem assignment_lt (rule : Option (MixRule α)) (ts : TileSet) {s : PaletteSet α} (h : 0 < s.size) :
    ∀ p ∈ assignment rule ts s, p < s.size := by
  intro p hp
  simp only [assignment, assign, errors, errorsBy, List.map_map, List.mem_map] at hp
  obtain ⟨t, -, rfl⟩ := hp
  have hrow : ((List.range s.size).map fun p =>
      tileSum (ts.entries.zip (allCosts Span.chunkRows rule ts s)) t p) ≠ [] := by simp; omega
  simpa using choose_fst_lt hrow

end Fit

end Tessera
