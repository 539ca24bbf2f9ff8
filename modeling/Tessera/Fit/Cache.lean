import Tessera.Fit.Error
import Tessera.Tensor.Index
/-!
# Remembered errors

Learning asks for the best palette of a tile again and again while it moves one colour at a time. The cache
(`BestPaletteCache`) keeps the error of a tile under a palette, with the palette's version at that time, and works it
out anew only when the palette has moved since.
-/

namespace Tessera

/-- Errors of tiles under palettes, with the version they belong to (`BestPaletteCache`). -/
structure Cache (α : Type) where
  version : List Nat
  cells : List (List (Option (Nat × α)))

namespace Cache

variable {α : Type}

def empty (tiles palettes : Nat) : Cache α where
  version := List.replicate palettes 0
  cells := List.replicate tiles (List.replicate palettes none)

/-- Marks one palette as moved (`BestPaletteCache.touch`). -/
def touch (c : Cache α) (p : Nat) : Cache α := { c with version := c.version.modify p (· + 1) }

def touchAll (c : Cache α) : Cache α := { c with version := c.version.map (· + 1) }

/-- Whether a cell is missing or belongs to another version. -/
def isStale (version : Nat) : Option (Nat × α) → Bool
  | some (v, _) => v != version
  | none => true

variable [Scalar α]

/-- A cell brought up to date, with the costs added in the way of a number of columns. -/
@[specialize] def refreshCell (columns : Nat) (tile : Tile) (candidates : List (Rgb α)) (version : Nat)
    (cell : Option (Nat × α)) : Option (Nat × α) :=
  if isStale version cell then some (version, Scalar.columnSum columns (Fit.tileCosts tile candidates)) else cell

/-- How many cells of a tile have to be worked out anew. They are the columns of one table. -/
def staleCount (version : List Nat) (row : List (Option (Nat × α))) : Nat :=
  (version.zip row).countP fun x => isStale x.1 x.2

@[specialize] def refreshRow (tile : Tile) (s : PaletteSet α) (version : List Nat) (row : List (Option (Nat × α))) :
    List (Option (Nat × α)) :=
  let columns := staleCount version row
  (version.zip row).zipIdx.map fun ((v, cell), p) => refreshCell columns tile (s.candidatesOf p) v cell

def cellError (cell : Option (Nat × α)) : α := cell.elim (Scalar.ofNat 0) Prod.snd

/-- The best palette of a tile, and the cache brought up to date for it (`BestPaletteCache.best`). -/
@[specialize] def best (c : Cache α) (ts : TileSet) (t : Nat) (s : PaletteSet α) : Nat × Cache α :=
  if s.size = 1 then (0, c)
  else
    match ts.tiles[t]?, c.cells[t]? with
    | some tile, some row =>
      let row := refreshRow tile s c.version row
      (Pick.argLeast (row.map cellError), { c with cells := c.cells.set t row })
    | _, _ => (0, c)

/-- Whether all errors remembered of a tile belong to the present versions. -/
def isFresh (c : Cache α) (t : Nat) : Bool :=
  (c.version.zip (c.cells.getD t [])).all fun (v, cell) => !isStale v cell

/-- The best palette of the tile at a position. A palette that the set no longer has cannot be brought up to
date. -/
def bestAt (c : Cache α) (ts : TileSet) (t : Int) (s : PaletteSet α) : Result (Nat × Cache α) :=
  if s.size = 1 then pure (0, c)
  else do
    let i ← position ts.tiles.length t
    let row := (c.cells[i]?).getD []
    let stale := (c.version.zip row).zipIdx.any fun ((v, cell), p) => isStale v cell && s.size ≤ p
    if stale then refuse .position
    else if c.version.isEmpty then refuse .choice
    else pure (c.best ts i s)

/-- Marks the palettes that a value names, each once. -/
def touchAt (c : Cache α) (palettes : Value) : Result (Cache α) := do
  let places ← placesAlong c.version.length palettes
  pure (places.data.toList.eraseDups.foldl touch c)

/-- The cells at some places of the array of tiles by palettes. -/
def cellsAt (c : Cache α) (places : Places) : Tensor (Option (Nat × α)) :=
  let width := c.version.length
  places.map fun i => (c.cells.getD (i / width) []).getD (i % width) none

/-- The place of the least error among cells that several tiles have. They cannot be brought up to date together. -/
def bestAmong (c : Cache α) (tiles : Nat) (index : Index) (cells : Tensor (Option (Nat × α))) : Result Nat := do
  match Tensor.zipWith? (fun cell v => isStale v cell) cells ⟨[c.version.length], c.version.toArray⟩ with
  | none => refuse .shape
  | some stale =>
    if stale.data.any id then
      let _ ← index.along [tiles]
      refuse .kind
    else
      match (Pick.least? (cells.data.toList.map cellError)).map Prod.fst with
      | some i => pure i
      | none => refuse .choice

end Cache

end Tessera
