import Tessera.Fit.Cache
/-!
# Moving colours

A sample moves one colour (`move_closer`): of the palette that fits the sample's tile best, the candidate nearest to
the sample. It moves a part of the way toward the sample. A run applies samples in order and remembers errors in
between.
-/

namespace Tessera.Learn

variable {α : Type} [Scalar α]

/-- The slot of a palette that is nearest to a colour. -/
@[specialize] def closestSlot (s : PaletteSet α) (p : Nat) (c : Rgb α) : Nat :=
  s.firstCandidate + Pick.argLeast ((s.candidatesOf p).map c.sqDist)

/-- Moves the nearest colour of a palette toward a colour (`move_closer`). -/
@[specialize] def moveIn (s : PaletteSet α) (p : Nat) (c : Rgb α) (rate : α) : PaletteSet α :=
  s.moveColor p (closestSlot s p c) c rate

@[specialize] def move (ts : TileSet) (s : PaletteSet α) (x : Sample) (rate : α) : PaletteSet α :=
  moveIn s (Fit.bestPalette ts x.tile s) (Rgb.ofBytes x.color) rate

/-- Palettes with the errors remembered of them. -/
structure Cached (α : Type) where
  set : PaletteSet α
  cache : Cache α

/-- Marks what moving a slot of a palette has changed. -/
def touched (c : Cache α) (s : PaletteSet α) (p slot : Nat) : Cache α :=
  if s.isShared slot then c.touchAll else c.touch p

/-- Applies one sample with remembered errors (`move_closer`). -/
@[specialize] def moveCached (ts : TileSet) (s : Cached α) (x : Sample) (rate : α) : Cached α :=
  let (p, cache) := s.cache.best ts x.tile s.set
  let c := Rgb.ofBytes x.color
  ⟨moveIn s.set p c rate, touched cache s.set p (closestSlot s.set p c)⟩

/-- Applies the sample with a number; there may be none. -/
@[specialize] def moveCachedAt (ts : TileSet) (s : Cached α) (i : Nat) (rate : α) : Cached α :=
  match ts.samples[i]? with
  | some x => moveCached ts s x rate
  | none => s

/-- Applies samples in order, each with its rate, starting with nothing remembered (`run_scheduled`). -/
@[specialize] def run (ts : TileSet) (s : PaletteSet α) (steps : List (Nat × α)) : PaletteSet α :=
  let start : Cached α := ⟨s, Cache.empty ts.tiles.length s.size⟩
  (steps.foldl (fun s step => moveCachedAt ts s step.1 step.2) start).set

/-! ## Checked uses -/

/-- Refuses to move a colour where there is none. -/
def checkColors (s : PaletteSet α) : Result Unit :=
  if s.size = 0 ∨ s.candidateCount = 0 then refuse .choice else pure ()

def sampleAt (ts : TileSet) (v : Value) : Result Sample := do
  let k ← placeAlong ts.samples.size v
  (ts.samples[k]?).elim (refuse .position) pure

/-- The palette and the slot that a sample moves, and the errors remembered when there are some. -/
def slotFor (ts : TileSet) (s : PaletteSet α) (cache? : Option (Cache α)) (x : Sample) :
    Result (Nat × Nat × Option (Cache α)) := do
  let (p, cache?) ← match cache? with
    | some c => do
      let (p, c) ← c.bestAt ts x.tile s
      pure (p, some c)
    | none => pure (Fit.bestPalette ts x.tile s, none)
  let _ ← position (max 1 s.size) p
  checkColors s
  pure (p, closestSlot s p (Rgb.ofBytes x.color), cache?)

/-- Marks what moving a slot of a palette has changed. The errors remembered have to be of that palette too. -/
def touchedChecked (c : Cache α) (s : PaletteSet α) (p slot : Nat) : Result (Cache α) :=
  if c.version.length ≤ p ∧ ¬ s.isShared slot then refuse .position else pure (touched c s p slot)

end Tessera.Learn
