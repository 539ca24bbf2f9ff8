import Tessera.Mix
import Tessera.Palette.Set
import Tessera.Span
import Tessera.Tile.Set
/-!
# How well palettes fit tiles

The error of a tile under a palette is the sum over its entries of the cost of the colour times its number of pixels.
The cost is the squared distance to the nearest candidate or, with a mix rule, that of the best mix. A tile is
assigned to the first palette with the least error (`assign_tiles`). A lone tile is measured in the same way
(`best_palette_for_tile`).
-/

namespace Tessera.Fit

variable {α : Type} [Scalar α]

/-- The nearest of a list of colours and its squared distance (`nearest_color`). -/
@[specialize] def nearest? (point : Rgb α) (colors : List (Rgb α)) : Option (Nat × α) :=
  Pick.least? (colors.map point.sqDist)

/-- The cost of showing a colour with a list of candidates; choosing from none has no finite cost (`_nearest_sq`, `_mix_sq`).
-/
@[specialize] def cost (rule : Option (MixRule α)) (candidates : List (Rgb α)) (point : Rgb α) : α :=
  match rule with
  | none => (nearest? point candidates).elim Scalar.infinite Prod.snd
  | some r => (Mix.search r point candidates).elim Scalar.infinite Mix.cost

/-- The cost of an entry times its number of pixels. -/
@[specialize] def entryCost (rule : Option (MixRule α)) (candidates : List (Rgb α)) (e : Entry) : α :=
  cost rule candidates (Rgb.ofBytes e.color) * Scalar.ofNat e.count

/-- The cost of an entry under every palette. -/
@[specialize] def entryCosts (rule : Option (MixRule α)) (s : PaletteSet α) (e : Entry) : List α :=
  s.candidates.map fun cs => entryCost rule cs e

/-- The costs of the mixes of a span of entries under every palette (`_mix_sq`). The span is searched palette by palette. -/
@[specialize] def mixCosts (rule : MixRule α) (s : PaletteSet α) (es : List Entry) : List (List α) :=
  let points : List (Rgb α) := es.map fun e => Rgb.ofBytes e.color
  let columns := s.candidates.map fun cs =>
    ((Mix.searchEach rule points cs).map fun m => m.elim Scalar.infinite Mix.cost).toArray
  es.zipIdx.map fun (e, i) => columns.map fun column => column.getD i Scalar.infinite * Scalar.ofNat e.count

/-- The costs of a span of entries under every palette (`run_span`). -/
@[specialize] def spanCosts (rule : Option (MixRule α)) (s : PaletteSet α) (es : List Entry) : List (List α) :=
  match rule with
  | none => es.map (entryCosts none s)
  | some r => mixCosts r s es

/-- The costs of all entries, worked out in spans. -/
@[specialize] def allCosts (chunk : Nat) (rule : Option (MixRule α)) (ts : TileSet) (s : PaletteSet α) : List (List α) :=
  Span.chunked chunk (spanCosts rule s) ts.entries

/-- Sums the costs of the entries of one tile under one palette. -/
@[specialize] def tileSum (labelled : List (Entry × List α)) (t p : Nat) : α :=
  Scalar.sum ((labelled.filter fun (e, _) => e.tile == t).map fun (_, cs) => cs.getD p (Scalar.ofNat 0))

/-- The error of every tile under every palette, with spans of a given size. -/
@[specialize] def errorsBy (chunk : Nat) (rule : Option (MixRule α)) (ts : TileSet) (s : PaletteSet α) : List (List α) :=
  let labelled := ts.entries.zip (allCosts chunk rule ts s)
  (List.range ts.tiles.length).map fun t => (List.range s.size).map fun p => tileSum labelled t p

/-- The error of every tile under every palette (`tile_palette_errors`). -/
@[specialize] def errors (rule : Option (MixRule α)) (ts : TileSet) (s : PaletteSet α) : List (List α) :=
  errorsBy Span.chunkRows rule ts s

/-- The first least error of a list of errors; without palettes, the first palette and no error. -/
@[inline] def choose (row : List α) : Nat × α := (Pick.least? row).getD (0, Scalar.ofNat 0)

/-- The palette of every tile with its error (`assign_tiles`). -/
@[specialize] def assign (rule : Option (MixRule α)) (ts : TileSet) (s : PaletteSet α) : List (Nat × α) :=
  (errors rule ts s).map choose

@[specialize] def assignment (rule : Option (MixRule α)) (ts : TileSet) (s : PaletteSet α) : List Nat :=
  (assign rule ts s).map Prod.fst

/-- The mean error of a pixel; zero when no pixel counts (`mean_square_error`). -/
@[specialize] def meanError (rule : Option (MixRule α)) (ts : TileSet) (s : PaletteSet α) : α :=
  if ts.totalWeight = 0 then Scalar.ofNat 0
  else Scalar.pairwiseSum ((assign rule ts s).map Prod.snd) / Scalar.ofNat ts.totalWeight

/-- The costs of the entries of one tile under a list of candidates. -/
@[specialize] def tileCosts (tile : Tile) (candidates : List (Rgb α)) : List α :=
  (TileSet.tileEntries tile).map (entryCost none candidates)

/-- The error of one tile under a list of candidates. -/
@[specialize] def tileError (tile : Tile) (candidates : List (Rgb α)) : α := Scalar.sum (tileCosts tile candidates)

/-- The palette with the least error for one tile (`best_palette_for_tile`). -/
@[specialize] def bestPalette (ts : TileSet) (t : Nat) (s : PaletteSet α) : Nat :=
  if s.size = 1 then 0
  else
    match ts.tiles[t]? with
    | none => 0
    | some tile => if tile.histogram.isEmpty then 0 else Pick.argLeast (s.candidates.map (tileError tile))

/-! ## Checked uses -/

/-- The rule to measure with by a draft of one. Without entries or palettes nothing is measured. -/
def ruleFor (d? : Option MixDraft) (ts : TileSet) (s : PaletteSet Float) : Result (Option (MixRule Float)) :=
  match d? with
  | none => pure none
  | some d => if s.size = 0 ∨ ts.entries.isEmpty then pure none else do pure (some (← d.rule s.candidateCount))

/-- The best palette of the tile at a position. -/
def bestPaletteAt (ts : TileSet) (t : Int) (s : PaletteSet α) : Result Nat :=
  if s.size = 1 then pure 0
  else do
    let i ← position ts.tiles.length t
    let isEmpty := (ts.tiles[i]?.map fun t => t.histogram.isEmpty).getD true
    if isEmpty then pure 0
    else if s.size = 0 then refuse .choice
    else pure (bestPalette ts i s)

end Tessera.Fit
