import Tessera.Learn.Phase
import Tessera.Level
/-!
# Bit depth of palettes

Reducing snaps all colours of a palette set to the levels of a bit depth, but for a fixed colour zero. A corrective
pass (`kmeans_pass`) moves every slot to the mean of the colours that use it, and reduces again.
-/

namespace Tessera.Depth

variable {α : Type} [Scalar α]

@[specialize] def snapFrom {n : Nat} (step : α) (first : Nat) (v : Vector (Rgb α) n) : Vector (Rgb α) n :=
  v.mapIdx fun k c => if k < first then c else c.map (Level.snapTo step)

/-- Snaps the colours of a palette set; a fixed slot keeps its colour (`BitDepthReducer.reduce`). -/
@[specialize] def reduce (bits : Nat) (s : PaletteSet α) : PaletteSet α :=
  let step : α := Level.step bits
  { s with palettes := s.palettes.map (snapFrom step s.zero.reservedSlots) }

/-- The slot that an entry counts for; a shared slot is counted in the first palette. -/
def countedSlot (s : PaletteSet α) (r : Residual α) : Nat × Nat :=
  if s.isShared r.slot then (0, 0) else (r.palette, r.slot)

/-- The mean of the entries that count for a slot; none when there are none. -/
@[specialize] def slotMean (s : PaletteSet α) (rs : Reseed.Residuals α) (p slot : Nat) : Option (Rgb α) :=
  let own := rs.filter fun (_, r) => countedSlot s r == (p, slot)
  let weight := Scalar.sum (own.map fun (e, _) => (Scalar.ofNat e.count : α))
  if Scalar.ofNat 0 < weight then
    some ((Rgb.sum (own.map fun (e, _) => (Rgb.ofBytes e.color).scale (Scalar.ofNat e.count : α))).map (· / weight))
  else none

def allSlots (s : PaletteSet α) : List (Nat × Nat) :=
  (List.range s.size).flatMap fun p => (List.range s.slots).map fun k => (p, k)

/-- Moves every slot that is used to the mean of what uses it (`kmeans_pass`). -/
@[specialize] def recenter (ts : TileSet) (s : PaletteSet α) : PaletteSet α :=
  let rs := Reseed.residuals ts s (Fit.assignment none ts s)
  (allSlots s).foldl
    (fun out (p, k) =>
      match slotMean s rs p k with
      | some c => out.setColor p k c
      | none => out)
    s

@[specialize] def correctOnce (bits : Nat) (ts : TileSet) (s : PaletteSet α) : PaletteSet α :=
  reduce bits (if ts.entries.isEmpty then s else recenter ts s)

variable {m : Type → Type} [Monad m]

/-- Corrective passes from number `i` on, `n` of them. -/
@[specialize] def correctFrom (tell : Moment α → m Unit) (bits : Nat) (ts : TileSet) :
    Nat → Nat → PaletteSet α → m (PaletteSet α)
  | 0, _, s => pure s
  | n + 1, i, s => do
    let s := correctOnce bits ts s
    tell (.corrected i s)
    correctFrom tell bits ts n (i + 1) s

/-- Reduces and then corrects (`BitDepthReducer.correct`). -/
@[specialize] def correct (tell : Moment α → m Unit) (bits passes : Nat) (ts : TileSet) (s : PaletteSet α) :
    m (PaletteSet α) :=
  correctFrom tell bits ts passes 0 (reduce bits s)

/-- Corrective passes when nothing else is asked for (`CORRECTIVE_PASSES`). -/
def defaultPasses : Nat := 3

end Tessera.Depth
