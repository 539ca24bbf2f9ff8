import Tessera.Composition.Basic
import Tessera.Disk
/-!
# Saving a composition

A composition whose colours fit a table of bytes is saved as indices into that table. A larger one is saved pixel by
pixel, under a name that says so. In the format that keeps the alpha of a table, every palette's transparent colour is
made transparent.
-/

namespace Tessera

namespace Composition

variable {α : Type}

def fullTable (c : Composition α) : List Pixel := c.flatPalette.map fun color => ⟨color, 255⟩

/-- The flat table in which every palette's transparent colour has no alpha (`_transparency_table`). -/
def clearTable (c : Composition α) : List Pixel :=
  c.palettes.flatMap fun p => p.toList.zipIdx.map fun (color, k) => ⟨color, c.alphaOf k⟩

/-- Whether every palette has a transparent colour, if there is to be one. -/
def isClearable (c : Composition α) : Bool :=
  c.palettes.isEmpty || c.transparentIndex.all fun k => decide (k < c.slots)

/-- The numbers of the colours in the flat table, as bytes. -/
def byteIndices (c : Composition α) : Result (List (List UInt8)) :=
  if c.fitsIndexed then do
    let rows ← c.checkedIndices
    pure (rows.map fun row => row.map Nat.toUInt8)
  else .error (.tooManyColours c.tableSize)

/-- The table that goes to a file of some name. -/
def tableFor (c : Composition α) (p : Path) : Result (List Pixel) :=
  if p.hasSuffix alphaSuffix then if c.isClearable then pure c.clearTable else refuse .position
  else pure c.fullTable

/-- The name under which a composition without a table is saved. -/
def alphaPath (p : Path) : Path := if p.hasSuffix alphaSuffix then p else p.withSuffix alphaSuffix

/-- Saves a composition to a disk (`save_indexed_image`). The answer has the path that is written and the picture in the
file. -/
def save (c : Composition α) (d : Disk) (p : Path) : Result (Disk × Path × Picture) := do
  let (p, picture) ←
    if c.fitsIndexed then do pure (p, Picture.indexed (← c.byteIndices) (← c.tableFor p))
    else do pure (alphaPath p, Picture.full .colorAlpha (← c.render))
  let (d, stored) ← d.writePicture p picture .null .null
  pure (d, p, stored)

end Composition

end Tessera
