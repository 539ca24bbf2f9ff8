import Tessera.Error
import Tessera.Image
/-!
# Compositions

A composition is an image as palettes and indices: a palette for every tile, and for every pixel a colour of its
tile's palette. It can be rendered to pixels, and its indices can be joined with one flat table of all colours.
-/

namespace Tessera

/-- Palettes, a palette number for every tile and a colour number for every pixel, row by row (`QuantizeResult`). -/
structure Composition (α : Type) where
  slots : Nat
  palettes : List (Vector (Rgb UInt8) slots)
  tilePalettes : List (List Nat)
  colorIndices : List (List Nat)
  tileWidth : Nat
  tileHeight : Nat
  mse : α
  cancelled : Bool
  transparentIndex : Option Nat

namespace Composition

variable {α : Type}

def height (c : Composition α) : Nat := c.colorIndices.length

def width (c : Composition α) : Nat := (c.colorIndices.head?.map List.length).getD 0

/-- The palette number of every pixel (`palette_index_map`). -/
def paletteMap (c : Composition α) : List (List Nat) :=
  c.tilePalettes.flatMap fun row =>
    List.replicate c.tileHeight (row.flatMap fun p => List.replicate c.tileWidth p)

def rowLengths {β : Type} (rows : List (List β)) : List Nat := rows.map List.length

/-- Joins two rasters given as rows, cell by cell. -/
def zipRows {β γ δ : Type} (f : β → γ → δ) (a : List (List β)) (b : List (List γ)) : List (List δ) :=
  a.zipWith (List.zipWith f) b

/-- Whether palette numbers and colour numbers cover the same pixels. -/
def isCovered (c : Composition α) : Bool := rowLengths c.paletteMap == rowLengths c.colorIndices

/-- The number of every pixel's colour in the flat table (`global_indices`). -/
def flatIndices (c : Composition α) : List (List Nat) :=
  zipRows (fun p k => p * c.slots + k) c.paletteMap c.colorIndices

/-- All colours of all palettes (`flat_palette`). -/
def flatPalette (c : Composition α) : List (Rgb UInt8) := c.palettes.flatMap Vector.toList

def tableSize (c : Composition α) : Nat := c.palettes.length * c.slots

def maxTable : Nat := 256

/-- Whether a byte can index the flat table (`fits_indexed`). -/
def fitsIndexed (c : Composition α) : Bool := c.tableSize ≤ maxTable

/-- A colour by the numbers of its palette and its slot. -/
def colorAt (c : Composition α) (p k : Nat) : Result (Rgb UInt8) :=
  match c.palettes[p]? with
  | some v => (v[k]?).elim (refuse .position) pure
  | none => refuse .position

def alphaOf (c : Composition α) (k : Nat) : UInt8 := if c.transparentIndex = some k then 0 else 255

/-- The pixel of a palette number and a colour number. -/
def pixelAt (c : Composition α) (p k : Nat) : Result Pixel := do
  let color ← c.colorAt p k
  pure ⟨color, c.alphaOf k⟩

/-- The pixels of the image; those of the transparent colour have no alpha (`render_rgba`). -/
def render (c : Composition α) : Result (List (List Pixel)) :=
  if c.isCovered then (zipRows c.pixelAt c.paletteMap c.colorIndices).mapM fun row => row.mapM id
  else refuse .position

/-- The numbers of the colours in the flat table, when the rasters fit together. -/
def checkedIndices (c : Composition α) : Result (List (List Nat)) :=
  if c.isCovered then pure c.flatIndices else refuse .shape

end Composition

end Tessera
