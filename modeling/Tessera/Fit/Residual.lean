import Tessera.Fit.Error
/-!
# Residuals

The residual of an entry under a fixed assignment (`entry_residuals`): the slot of its tile's palette that is nearest
to it, the squared distance to that slot, and the distance to the runner-up when there is one.
-/

namespace Tessera

/-- What is left of an entry under the palette of its tile (`EntryResiduals`). -/
structure Residual (α : Type) where
  palette : Nat
  slot : Nat
  error : α
  second : Option α

namespace Residual

variable {α : Type} [Scalar α]

/-- The residual of an entry under one palette. -/
@[specialize] def ofEntry (s : PaletteSet α) (p : Nat) (e : Entry) : Residual α :=
  match Pick.ascending ((s.candidatesOf p).map (Rgb.ofBytes e.color).sqDist) with
  | [] => ⟨p, s.firstCandidate, Scalar.infinite, none⟩
  | (d, k) :: rest => ⟨p, k + s.firstCandidate, d, rest.head?.map Prod.fst⟩

/-- The residuals of all entries under an assignment, worked out in spans of a given size. -/
@[specialize] def allBy (chunk : Nat) (ts : TileSet) (s : PaletteSet α) (assignment : List Nat) : List (Residual α) :=
  Span.chunked chunk (fun es => es.map fun e => ofEntry s (assignment.getD e.tile 0) e) ts.entries

/-- The residuals of all entries under an assignment (`entry_residuals`). -/
@[specialize] def all (ts : TileSet) (s : PaletteSet α) (assignment : List Nat) : List (Residual α) :=
  allBy Span.chunkRows ts s assignment

/-- Refuses residuals of entries from no candidates. -/
def check (ts : TileSet) (s : PaletteSet α) : Result Unit :=
  if !ts.entries.isEmpty && (s.size == 0 || s.candidateCount == 0) then refuse .position else pure ()

end Residual

end Tessera
