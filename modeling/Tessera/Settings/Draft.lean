import Tessera.Hex
import Tessera.Settings.Field
/-!
# Drafts of settings

A draft holds a loose value for every field. Checking it (`validate`) looks at the bounded fields in order, then at
the three families, then at the two colours, and last at the number of slots that are left to optimise. The first
fault found is the answer.

A bounded field without a value passes the check. A part of the program that then needs the number refuses.
-/

namespace Tessera

def Draft := Field → Value

namespace Draft

def initial : Draft := Field.initial

def get (d : Draft) (f : Field) : Value := d f

def set (d : Draft) (f : Field) (v : Value) : Draft := fun g => if g = f then v else d g

/-- Gives several fields their values; the last one wins. -/
def setAll (d : Draft) (given : List (Field × Value)) : Draft :=
  given.foldl (fun d (f, v) => d.set f v) d

/-- Gives values to named fields; a name that is no field is refused (`with_overrides`). -/
def setNamed (d : Draft) (given : List (String × Value)) : Result Draft := do
  let pairs ← given.mapM fun (s, v) =>
    match Field.ofName? s with
    | some f => pure (f, v)
    | none => refuse .kind
  pure (d.setAll pairs)

def checkRange (f : Field) (lo hi v : Value) : Result Unit :=
  if v.numberLe hi && lo.numberLe v then pure () else reject (.outside f.name v lo hi)

def checkBounded (f : Field) (v : Value) : Result Unit :=
  match f.bounds? with
  | none => pure ()
  | some (lo, hi) =>
    match v with
    | .null => pure ()
    | .int n => checkRange f lo hi (.int n)
    | .float x => if f.isWhole then reject (.notInteger f.name v) else checkRange f lo hi (.float x)
    | _ => reject (.notNumber f.name v)

def mode (d : Draft) : Result Dither.Mode :=
  match d.get .dither with
  | .mode m => pure m
  | v => reject (.notMember Field.dither.name "Dither" v)

def pattern (d : Draft) : Result Dither.Pattern :=
  match d.get .ditherPattern with
  | .pattern p => pure p
  | v => reject (.notMember Field.ditherPattern.name "DitherPattern" v)

def zero (d : Draft) : Result ColorZero :=
  match d.get .colorZero with
  | .zero z => pure z
  | v => reject (.notMember Field.colorZero.name "ColorZeroBehavior" v)

def sharedColor (d : Draft) : Result (Rgb Int) := Hex.ofValue (d.get .sharedColor)

def transparentColor (d : Draft) : Result (Rgb Int) := Hex.ofValue (d.get .transparentColor)

/-- The slots of a palette that the optimiser controls. -/
def optimisedSlots (d : Draft) (z : ColorZero) : Result (Int × Int) :=
  match d.get .colorsPerPalette with
  | .int n => pure (n, n - z.reservedSlots)
  | _ => refuse .kind

/-- Checks a draft (`QuantizeSettings.validate`). -/
def validate (d : Draft) : Result Unit := do
  Field.all.forM fun f => checkBounded f (d.get f)
  let _ ← d.mode
  let _ ← d.pattern
  let z ← d.zero
  let _ ← d.sharedColor
  let _ ← d.transparentColor
  let (colors, slots) ← d.optimisedSlots z
  if slots < 2 then .error (.fewSlots colors slots z) else pure ()

end Draft

end Tessera
