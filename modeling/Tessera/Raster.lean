/-!
# Rasters

A raster is a rectangle of cells, row by row. `get` reads a cell and `ofFn` builds a raster from its cells;
the two are inverse to each other, and everything else is said through them.
-/

namespace Tessera

/-- A rectangle of cells. -/
structure Raster (β : Type) (height width : Nat) where
  rows : Vector (Vector β width) height

namespace Raster

variable {β γ : Type} {height width : Nat}

@[inline] def get (r : Raster β height width) (y : Fin height) (x : Fin width) : β :=
  r.rows[y.val][x.val]

@[inline] def ofFn (f : Fin height → Fin width → β) : Raster β height width :=
  ⟨Vector.ofFn fun y => Vector.ofFn fun x => f y x⟩

@[simp] theorem get_ofFn (f : Fin height → Fin width → β) (y : Fin height) (x : Fin width) :
    (ofFn f).get y x = f y x := by
  simp [get, ofFn]

@[ext] theorem ext {r s : Raster β height width} (h : ∀ y x, r.get y x = s.get y x) : r = s := by
  obtain ⟨rows⟩ := r
  obtain ⟨rows'⟩ := s
  congr 1
  apply Vector.ext
  intro y hy
  apply Vector.ext
  intro x hx
  exact h ⟨y, hy⟩ ⟨x, hx⟩

def map (f : β → γ) (r : Raster β height width) : Raster γ height width :=
  ⟨r.rows.map fun row => row.map f⟩

@[simp] theorem get_map (f : β → γ) (r : Raster β height width) (y : Fin height) (x : Fin width) :
    (r.map f).get y x = f (r.get y x) := by
  simp [get, map]

def toLists (r : Raster β height width) : List (List β) := r.rows.toList.map Vector.toList

def toList (r : Raster β height width) : List β := r.toLists.flatten

def row (r : Raster β height width) (y : Fin height) : List β := r.rows[y.val].toList

/-- The raster of rows that all have the right length. -/
def ofLists? (rows : List (List β)) : Option (Raster β height width) :=
  if h : rows.length = height ∧ ∀ row ∈ rows, row.length = width then
    some ⟨⟨(rows.attach.map fun ⟨row, m⟩ => ⟨row.toArray, by simpa using h.2 row m⟩).toArray, by simpa using h.1⟩⟩
  else none

end Raster

end Tessera
