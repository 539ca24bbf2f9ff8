import Tessera.Composition.Basic
import Tessera.Dither.Lookup
import Tessera.Fit.Error
import Tessera.Settings.Basic
import Tessera.Tile.Canvas
/-!
# Composing

A canvas is composed tile by tile (`Compositor.compose`). Every tile takes the palette with the least error, measured
with the palettes rounded to bytes. Every pixel takes the nearest candidate of its tile's palette or, with dithering,
the one of the two colours of its best mix that its rank asks for. Reserved pixels take colour zero.
-/

namespace Tessera

/-- Dithering by a pattern. -/
structure Dithering (α : Type) where
  pattern : Dither.Pattern
  weight : α

def Dithering.rule {α : Type} (d : Dithering α) : MixRule α := ⟨d.pattern.levels, d.weight⟩

def Settings.dithering {α : Type} (s : Settings α) : Option (Dithering α) :=
  if s.useDither then some ⟨s.ditherPattern, s.ditherWeight⟩ else none

namespace Compose

variable {α : Type} [Scalar α]

/-- A pixel as the composition sees it. -/
structure Spot where
  color : Rgb UInt8
  reserved : Bool
  rank : Nat
deriving Inhabited

/-- The number of the nearest candidate, among all slots. -/
@[specialize] def plainIndex (s : PaletteSet α) (p : Nat) (x : Spot) : Nat :=
  Pick.argLeast ((s.candidatesOf p).map (Rgb.ofBytes x.color).sqDist) + s.firstCandidate

/-- The number of the colour of the best mix that the rank asks for, among all slots. -/
@[specialize] def mixIndex (rule : MixRule α) (s : PaletteSet α) (p : Nat) (x : Spot) : Nat :=
  ((Mix.search rule (Rgb.ofBytes x.color) (s.candidatesOf p)).elim 0 fun m => m.slotAt x.rank) + s.firstCandidate

def scatter (out : Array Nat) (values : List (Nat × Nat)) : Array Nat :=
  values.foldl (fun out (i, v) => out.setIfInBounds i v) out

/-- The numbers of a span of pixels with dithering. The pixels of one palette are searched together, and what is found for
them is put back into their places. -/
@[specialize] def mixSpan (rule : MixRule α) (s : PaletteSet α) (span : List (Nat × Spot)) : List Nat :=
  let group (p : Nat) : List (Nat × Nat) :=
    let rows := span.zipIdx.filter fun ((q, _), _) => q == p
    let mixes := Mix.searchEach rule (rows.map fun ((_, x), _) => Rgb.ofBytes x.color) (s.candidatesOf p)
    rows.zipWith (fun ((_, x), i) m => (i, (m.elim 0 fun m => m.slotAt x.rank) + s.firstCandidate)) mixes
  ((List.range s.size).foldl (fun out p => scatter out (group p)) (Array.replicate span.length 0)).toList

/-- The numbers of a span of pixels, each with the number of its palette (`run_span`). -/
@[specialize] def spanIndices (rule : Option (MixRule α)) (s : PaletteSet α) (span : List (Nat × Spot)) : List Nat :=
  match rule with
  | none => span.map fun (p, x) => plainIndex s p x
  | some r => mixSpan r s span

/-- The numbers of all pixels, in spans of a given size (`_pixel_indices`). -/
@[specialize] def pixelIndicesBy (chunk : Nat) (rule : Option (MixRule α)) (s : PaletteSet α) (spots : List (Nat × Spot)) :
    List Nat :=
  Span.chunked chunk (spanIndices rule s) spots

/-- The numbers of all pixels; reserved ones have number zero. -/
@[specialize] def indices (rule : Option (MixRule α)) (s : PaletteSet α) (spots : List (Nat × Spot)) : List Nat :=
  (pixelIndicesBy Span.chunkRows rule s spots).zipWith (fun k (_, x) => if x.reserved then 0 else k) spots

/-- The squared distance of a pixel from the colour that it gets. -/
@[specialize] def pixelError (s : PaletteSet α) (p : Nat) (x : Spot) (k : Nat) : α :=
  ((s.color? p k).getD (Rgb.fill (Scalar.ofNat 0))).sqDist (Rgb.ofBytes x.color)

/-- The mean error of the pixels that are not reserved; zero when there are none. -/
@[specialize] def meanError (s : PaletteSet α) (spots : List (Nat × Spot)) (numbers : List Nat) : α :=
  let kept := (spots.zip numbers).filter fun ((_, x), _) => !x.reserved
  if kept.isEmpty then Scalar.ofNat 0
  else Scalar.sum (kept.map fun ((p, x), k) => pixelError s p x k) / Scalar.ofNat kept.length

variable {height width : Nat}

/-- The pixels tile by tile, each with the number of its tile's palette. -/
def spots (pattern : Option Dither.Pattern) (t : Tiling height width) (work : Raster (Rgb UInt8) height width)
    (reserved : Raster Bool height width) (assignment : List Nat) : List (Nat × Spot) :=
  let rank (y : Fin height) (x : Fin width) : Nat := pattern.elim 0 fun p => p.rankAt x.val y.val
  let cells := t.blocks (.ofFn fun y x => (⟨work.get y x, reserved.get y x, rank y x⟩ : Spot))
  (cells.toLists.zip assignment).flatMap fun (row, p) => row.map fun x => (p, x)

/-- A raster from the numbers of all cells, tile by tile. -/
def placed (t : Tiling height width) (numbers : Array Nat) : Raster Nat height width :=
  t.unblocks (.ofFn fun b o => numbers.getD (b.val * t.area + o.val) 0)

/-- The composition of a canvas with its tiles (`Compositor.compose`). -/
@[specialize] def compose (dithering : Option (Dithering α)) (c : Canvas) (ts : TileSet) (s : PaletteSet α)
    (cancelled : Bool) : Composition α :=
  let bytes := s.toBytes
  let snapped : PaletteSet α := bytes.ofBytes
  let rule := dithering.map Dithering.rule
  let assignment := Fit.assignment rule ts snapped
  let spots := spots (dithering.map Dithering.pattern) c.tiling c.work c.reserved assignment
  let numbers := indices rule snapped spots
  { slots := bytes.slots
    palettes := bytes.palettes
    tilePalettes := (List.range c.tiling.rows).map fun r => (assignment.drop (r * c.tiling.cols)).take c.tiling.cols
    colorIndices := (placed c.tiling numbers.toArray).toLists
    tileWidth := c.tiling.tileWidth
    tileHeight := c.tiling.tileHeight
    mse := meanError snapped spots numbers
    cancelled
    transparentIndex := if s.zero.isTransparent then some 0 else none }

/-- The composition, when there are colours to compose with. -/
def checked (dithering : Option (Dithering α)) (c : Canvas) (ts : TileSet) (s : PaletteSet α) (cancelled : Bool) :
    Result (Composition α) :=
  if s.size = 0 ∨ s.candidateCount = 0 then .error .noColours else pure (compose dithering c ts s cancelled)

end Compose

/-- The pattern that a draft asks for when dithering is on, if its family hands it out. -/
def Draft.usedPattern (d : Draft) : Result (Option Dither.Pattern) :=
  match d.get .dither with
  | .mode .off => pure none
  | _ => do pure (some (← Dither.Pattern.registered (d.get .ditherPattern)))

end Tessera
