import Tessera.Cluster.Basic
import Tessera.Palette.Set
import Tessera.Settings.Basic
import Tessera.Tile.Set
/-!
# Starting palettes

The tiles are clustered by their mean colours (`initialize_palettes`), weighted by their pixels, and every cluster
starts a palette with its centre. Without a tile that counts all palettes start black.
-/

namespace Tessera.Start

variable {α : Type} [Scalar α]

def used (ts : TileSet) : List Tile := ts.tiles.filter fun t => 0 < t.pixelCount

@[specialize] def seeds (means : Cluster.Means α) (ts : TileSet) (k : Nat) : List (Rgb α) :=
  match used ts with
  | [] => List.replicate k (Rgb.fill (Scalar.ofNat 0))
  | tiles =>
    (Cluster.clusters means (tiles.map Tile.mean) (tiles.map fun t => Scalar.ofNat t.pixelCount) k
      Cluster.defaultRounds).centers

/-- The starting palettes (`initialize_palettes`). -/
@[specialize] def palettes (means : Cluster.Means α) (ts : TileSet) (k : Nat) (zero : ColorZero)
    (shared transparent : Rgb Int) : PaletteSet α :=
  PaletteSet.ofSeeds zero (Rgb.ofInts shared) (Rgb.ofInts transparent) (seeds means ts k)

/-! ## Palettes by a draft -/

def blackCount : Value → Result Nat
  | .int k =>
    if k < 0 then refuse .negative
    else do
      Tensor.checkCount (k.toNat * 3)
      pure k.toNat
  | _ => refuse .kind

/-- The first colours of palettes, as many as a value asks for. -/
def seedsGiven (ts : TileSet) (k : Value) : Result (List (Rgb Float)) := do
  match used ts with
  | [] => pure (List.replicate (← blackCount k) ⟨0, 0, 0⟩)
  | tiles =>
    let points := tiles.map Tile.mean
    let weights := tiles.map fun t => Scalar.ofNat t.pixelCount
    pure (← Cluster.given points weights k (.int Cluster.defaultRounds)).centers

end Tessera.Start
