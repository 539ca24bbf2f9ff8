/-!
# Colour zero

The first slot of every palette has a meaning of its own, set by a policy. Under `unique` it is a slot like
the others. Under `shared` one colour stands there in all palettes. Under the two transparent policies it is
fixed, and only reserved pixels use it: those with little alpha, or those of one key colour.
-/

namespace Tessera

/-- What the first slot of a palette means (`ColorZeroBehavior`). -/
inductive ColorZero where
  | unique
  | shared
  | transparentAlpha
  | transparentKey
deriving DecidableEq, Repr, Inhabited

namespace ColorZero

def all : List ColorZero := [unique, shared, transparentAlpha, transparentKey]

def name : ColorZero → String
  | unique => "unique"
  | shared => "shared"
  | transparentAlpha => "transparent-from-transparent"
  | transparentKey => "transparent-from-color"

/-- The title under which a policy is listed. -/
def title : ColorZero → String
  | unique => "UNIQUE"
  | shared => "SHARED"
  | transparentAlpha => "TRANSPARENT_FROM_TRANSPARENT"
  | transparentKey => "TRANSPARENT_FROM_COLOR"

def ofName? (s : String) : Option ColorZero := all.find? fun z => z.name == s

/-- Whether the first slot is fixed and kept for reserved pixels (`is_transparent`). -/
def isTransparent : ColorZero → Bool
  | transparentAlpha => true
  | transparentKey => true
  | _ => false

/-- Slots of a palette that other pixels never use (`reserved_slots`). -/
def reservedSlots (z : ColorZero) : Nat := if z.isTransparent then 1 else 0

/-- Slots of a palette with one optimised colour (`initial_slots`). -/
def initialSlots : ColorZero → Nat
  | unique => 1
  | _ => 2

/-- The first slot that each palette optimises for itself. -/
def firstFree : ColorZero → Nat
  | unique => 0
  | _ => 1

end ColorZero

end Tessera
