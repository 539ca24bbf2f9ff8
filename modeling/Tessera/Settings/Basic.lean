import Tessera.Settings.Draft
/-!
# Settings

The settings with the types that the program works with. A draft that passes its check, with every number
present, gives settings.
-/

namespace Tessera

/-- Checked settings (`QuantizeSettings`). -/
structure Settings (α : Type) where
  tileWidth : Nat
  tileHeight : Nat
  numPalettes : Nat
  colorsPerPalette : Nat
  bitsPerChannel : Nat
  fractionOfPixels : α
  ditherWeight : α
  dither : Dither.Mode
  ditherPattern : Dither.Pattern
  colorZero : ColorZero
  sharedColor : Rgb Int
  transparentColor : Rgb Int
  alpha : Option α
  finalAlpha : Option α
  minColorFactor : α
  minPaletteFactor : α
  replaceIterations : Nat

namespace Settings

variable {α : Type}

/-- Whether dithering is on (`use_dither`). -/
def useDither (s : Settings α) : Bool := s.dither != .off

/-- Slots of a palette that the optimiser controls (`optimised_slots`). -/
def optimisedSlots (s : Settings α) : Nat := s.colorsPerPalette - s.colorZero.reservedSlots

variable [Scalar α]

/-- The learning rate at the start, by the dither mode when none is given (`learning_rates`). -/
def startRate (s : Settings α) : α :=
  s.alpha.getD (if s.dither = .slow then Scalar.ratio 1 10 else Scalar.ratio 3 10)

/-- The learning rate at the end, by the dither mode when none is given (`learning_rates`). -/
def endRate (s : Settings α) : α :=
  s.finalAlpha.getD (if s.dither = .slow then Scalar.ratio 2 100 else Scalar.ratio 5 100)

/-- Samples in one block of learning, for a number of samples in all (`block_iterations`). Careful dithering takes a fifth.
-/
def blockIterations (s : Settings α) (samples : Int) : Nat :=
  let n := s.fractionOfPixels * Scalar.ofInt samples
  let n := if s.dither = .slow then n / Scalar.ofNat 5 else n
  max 1 (Scalar.toNat n)

end Settings

namespace Draft

/-- The natural number of a field, or of its default when it has none. -/
def natural (d : Draft) (f : Field) : Nat :=
  match d.get f, f.default with
  | .int n, _ => n.toNat
  | _, .int n => n.toNat
  | _, _ => 0

def scalar? (d : Draft) (f : Field) : Option Float :=
  match d.get f with
  | .int n => some (Float.ofInt n)
  | .float x => some x
  | _ => none

/-- The scalar of a field, or of its default when it has none. -/
def scalar (d : Draft) (f : Field) : Float :=
  match d.scalar? f, f.default with
  | some x, _ => x
  | none, .float x => x
  | none, _ => 0.0

/-- Bounded fields of a draft without a value, the learning rates apart. -/
def missing (d : Draft) : List Field :=
  Field.all.filter fun f =>
    f.bounds?.isSome && f != .alpha && f != .finalAlpha &&
      match d.get f with
      | .null => true
      | _ => false

/-- A text that is repeated as often as a share says, and then read as a number. -/
def repeatedBlock (d : Draft) (s : String) : Result Int :=
  match d.get .fractionOfPixels, d.get .dither with
  | .int _, .mode .slow => refuse .kind
  | .int n, _ => Value.integer (.text (String.join (List.replicate n.toNat s)))
  | _, _ => refuse .kind

/-- The share of a number of samples that one block takes. -/
def blockShare (d : Draft) (samples : Value) : Result Int := do
  let n ← (← Number.ofValue (d.get .fractionOfPixels)).mul (← Number.ofValue samples)
  match d.get .dither with
  | .mode .slow => Number.truncateReal (← n.div (.whole 5))
  | _ => n.truncate

/-- The samples in one block for a number of samples of any kind. -/
def blockSize (d : Draft) (samples : Value) : Result Int := do
  let n ← match samples with
    | .text s => d.repeatedBlock s
    | v => d.blockShare v
  pure (max 1 n)

/-- The settings of a draft. A missing number is filled with its default, and `missing` names it. -/
def settings (d : Draft) : Result (Settings Float) := do
  d.validate
  let dither ← d.mode
  let ditherPattern ← d.pattern
  let colorZero ← d.zero
  let sharedColor ← d.sharedColor
  let transparentColor ← d.transparentColor
  pure {
    tileWidth := d.natural .tileWidth
    tileHeight := d.natural .tileHeight
    numPalettes := d.natural .numPalettes
    colorsPerPalette := d.natural .colorsPerPalette
    bitsPerChannel := d.natural .bitsPerChannel
    fractionOfPixels := d.scalar .fractionOfPixels
    ditherWeight := d.scalar .ditherWeight
    dither
    ditherPattern
    colorZero
    sharedColor
    transparentColor
    alpha := d.scalar? .alpha
    finalAlpha := d.scalar? .finalAlpha
    minColorFactor := d.scalar .minColorFactor
    minPaletteFactor := d.scalar .minPaletteFactor
    replaceIterations := d.natural .replaceIterations }

end Draft

end Tessera
