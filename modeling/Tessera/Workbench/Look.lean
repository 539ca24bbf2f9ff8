import Tessera.Workbench.Basic
/-!
# Looking at the work

What a workbench tells of its palettes. Most of it leaves the workbench as it is; some of it makes a tool, or brings one
up to date.
-/

namespace Tessera.Bench

def save : Bench Unit := do
  let b ← board
  modify fun w => { w with saved := some b }

/-- Whether the palettes are those of the copy. -/
def sameAsSaved : Bench Bool := do
  let b ← board
  pure ((← get).saved.any b.same)

/-- The palette of every tile with its error. -/
def assign (mix : Option MixDraft) : Bench (List (Nat × Float)) := do
  let ts ← allTiles
  let (s, rule) ← measuredBy mix ts (← board)
  pure (Fit.assign rule ts s)

/-- The error of every tile under every palette. -/
def errors (mix : Option MixDraft) : Bench (List (List Float)) := do
  let ts ← allTiles
  let (s, rule) ← measuredBy mix ts (← board)
  pure (Fit.errors rule ts s)

def meanError (mix : Option MixDraft) : Bench Float := do
  let ts ← tiles
  if ts.totalWeight = 0 then pure 0.0
  else
    let (s, rule) ← measuredBy mix ts (← board)
    pure (Fit.meanError rule ts s)

/-- The best palette of a tile. A single palette is the best of any. -/
def bestPalette (t : Value) : Bench Nat := do
  let b ← board
  if b.set.size = 1 then pure 0
  else
    let ts ← tiles
    let i ← placeAlong ts.tiles.length t
    if (ts.tiles[i]?).all fun t => t.histogram.isEmpty then pure 0
    else Fit.bestPaletteAt ts i (← b.known)

def renewCache : Bench Unit := do
  let b ← board
  let ts ← allTiles
  setCache (Cache.empty ts.tiles.length b.set.size)

/-- The best palette of some tiles by the errors remembered, with the cells of the tiles. The policy is asked only when
an error has to be worked out. -/
def cacheBest (t : Value) : Bench (Nat × Tensor (Option (Nat × Float)) × List Nat) := do
  let c ← present .member (← get).cache
  let b ← board
  let ts ← tiles
  let index ← Index.ofValue t
  let places ← index.along [ts.tiles.length, c.version.length]
  if b.set.size = 1 then pure (0, c.cellsAt places, c.version)
  else
    match index with
    | .one i =>
      let fresh := c.isFresh (← position ts.tiles.length i)
      let (p, c) ← c.bestAt ts i (← if fresh then pure b.set else b.known)
      setCache c
      pure (p, c.cellsAt places, c.version)
    | _ => do pure (← c.bestAmong ts.tiles.length index (c.cellsAt places), c.cellsAt places, c.version)

/-- Marks palettes, or all of them, and tells the versions. -/
def touch (p : Value) : Bench (List Nat) := do
  let c ← (← present .member (← get).cache).touchAt p
  setCache c
  pure c.version

/-- The residuals under the present assignment. -/
def residuals : Bench (Reseed.Residuals Float) := do
  let ts ← allTiles
  let s ← measured (← board)
  Residual.check ts s
  pure (Reseed.residuals ts s (Fit.assignment none ts s))

/-- What every slot contributes under the present assignment. -/
def contributions : Bench (List (List Float)) := do
  let _ ← reseedRule
  let rs ← residuals
  pure (Reseed.contributions (← palettes) rs)

def worst (palette taken : Value) : Bench (List (Rgb UInt8)) := do
  let _ ← reseedRule
  let rs ← residuals
  let taken ← Reseed.takenOf taken
  pure (Reseed.worst (← Reseed.ofPalette rs palette) none taken)

/-- The seeds of a further slot of a board. There has to be a slot already. -/
def seedsOf (b : Board) : Bench (List (Rgb Float)) := do
  let ts ← tiles
  if b.set.slots = 0 then refuse .position
  else if ts.entries.isEmpty then pure (Learner.growthSeeds ts b.set)
  else
    let s ← measured b
    Residual.check ts s
    pure (Learner.growthSeeds ts s)

def growthSeeds : Bench (List (Rgb Float)) := do
  let _ ← learnerIfAny
  seedsOf (← board)

def learnerError : Bench Float := do
  let _ ← learner
  errorOf (← board)

def checkpoint : Bench (Float × Learner Float Generator) := do
  let l ← learner
  let (s, pb) ← problemFor (← board)
  let (e, l) := l.checkpoint pb s
  setLearner l
  pure (e, l)

def compose : Bench (Composition Float) := do
  let setup := (← get).setup
  let pattern ← setup.draft.usedPattern
  let b ← board
  if b.set.size = 0 then throw Error.noColours
  else
    let s ← b.known
    if s.candidateCount = 0 then throw Error.noColours
    else
      let ts ← tiles
      let dithering ← match pattern with
        | none => pure none
        | some p => do pure (some ⟨p, ← (setup.draft.get .ditherWeight).real⟩)
      pure (Compose.compose dithering (← present .member setup.canvas) ts s false)

end Tessera.Bench
