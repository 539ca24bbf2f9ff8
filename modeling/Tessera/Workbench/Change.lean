import Tessera.Workbench.Basic
/-!
# Changing the work

New palettes on a workbench, and palettes of another bit depth.
-/

namespace Tessera.Bench

def begin : Bench Unit := do
  let d := (← get).setup.draft
  let ts ← allTiles
  let seeds ← Start.seedsGiven ts (d.get .numPalettes)
  let shared ← d.sharedColor
  let transparent ← d.transparentColor
  let ints (c : Rgb Int) : Value := .list (c.toList.map .int)
  let b ← Board.ofSeeds (d.get .colorZero) (ints shared) (ints transparent) seeds
  setBoard { b with reading := Workbench.settingsReading }

/-! ## Bit depth -/

/-- The numbers of bits and of passes that a reduction is made with. -/
def depth (bits : Value) : Bench (Int × Nat) := do
  let n ← bits.integer
  let passes ← (← get).setup.passes.integer
  pure (n, passes.toNat)

def reduce (bits : Value) : Bench Unit := do
  let (n, _) ← depth bits
  let s ← palettes
  setPalettes (Depth.reduce (← Level.checkBits n) s)

/-- The tiles of which palettes are to be corrected, when there is a colour for each of their entries. -/
def correctable (b : Board) : Bench TileSet := do
  let ts ← tiles
  if ts.entries.isEmpty then pure ts
  else
    Residual.check ts (← measured b)
    pure ts

def correctOnce (bits : Value) : Bench Unit := do
  let (n, _) ← depth bits
  let b ← board
  let ts ← correctable b
  let s ← b.known
  setPalettes (Depth.correctOnce (← Level.checkBits n) ts s)

abbrev Told := StateM (List (Moment Float))

def hear (x : Moment Float) : Told Unit := modify (· ++ [x])

/-- Reduces and corrects the palettes, and tells of every pass. -/
def correct (bits : Value) : Bench (List (Moment Float)) := do
  let (n, passes) ← depth bits
  let b ← board
  let s ← b.known
  let n ← Level.checkBits n
  if passes = 0 then
    setPalettes (Depth.reduce n s)
    pure []
  else
    let ts ← correctable b
    let (s, told) := (Depth.correct hear n passes ts s).run []
    setPalettes s
    pure told

end Tessera.Bench
