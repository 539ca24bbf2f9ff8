import Tessera.ColorZero
import Tessera.Rgb
/-!
# Palette sets

A palette set holds palettes of one length under a policy for the first slot, colour zero. Pixels that are not
reserved use the *candidates* of a palette: all its slots, or all but the first when that one is transparent.
A transparent slot is fixed. A shared slot holds one colour in all palettes, so writing to it writes to all.
-/

namespace Tessera

/-- Palettes of one length. -/
structure PaletteSet (α : Type) where
  zero : ColorZero
  slots : Nat
  palettes : List (Vector (Rgb α) slots)

namespace PaletteSet

variable {α : Type}

def size (s : PaletteSet α) : Nat := s.palettes.length

/-- The first slot that pixels may use (`first_candidate`). -/
def firstCandidate (s : PaletteSet α) : Nat := s.zero.reservedSlots

/-- The first slot that each palette has for itself (`first_free`). -/
def firstFree (s : PaletteSet α) : Nat := s.zero.firstFree

def candidateCount (s : PaletteSet α) : Nat := s.slots - s.firstCandidate

/-- The colours that pixels may use, palette by palette. -/
def candidates (s : PaletteSet α) : List (List (Rgb α)) :=
  s.palettes.map fun v => v.toList.drop s.firstCandidate

/-- The candidates of one palette; none when there is no such palette. -/
def candidatesOf (s : PaletteSet α) (p : Nat) : List (Rgb α) :=
  match s.palettes[p]? with
  | some v => v.toList.drop s.firstCandidate
  | none => []

def toLists (s : PaletteSet α) : List (List (Rgb α)) := s.palettes.map Vector.toList

def color? (s : PaletteSet α) (p slot : Nat) : Option (Rgb α) :=
  match s.palettes[p]? with
  | some v => v[slot]?
  | none => none

/-- Whether a slot never changes (`is_fixed`). -/
def isFixed (s : PaletteSet α) (slot : Nat) : Bool := s.zero.isTransparent && slot == 0

/-- Whether a slot is common to all palettes (`is_shared`). -/
def isShared (s : PaletteSet α) (slot : Nat) : Bool := s.zero == .shared && slot == 0

/-! ## Writing to slots -/

/-- Changes the colour in one slot of a palette. -/
@[specialize] def modifySlot {n : Nat} (v : Vector (Rgb α) n) (slot : Nat) (f : Rgb α → Rgb α) : Vector (Rgb α) n :=
  if h : slot < n then v.set slot (f v[slot]) else v

/-- Changes the colour in one slot of one palette, whatever the policy. -/
@[specialize] def modifyAt (s : PaletteSet α) (p slot : Nat) (f : Rgb α → Rgb α) : PaletteSet α :=
  { s with palettes := s.palettes.modify p fun v => modifySlot v slot f }

/-- Puts one colour into a slot of all palettes. -/
def fillSlot (s : PaletteSet α) (slot : Nat) (c : Rgb α) : PaletteSet α :=
  { s with palettes := s.palettes.map fun v => modifySlot v slot fun _ => c }

/-- Changes the colour of a slot by the policy: a fixed slot stays, a shared one is changed in the first palette
and copied to all. -/
@[specialize] def changeColor (s : PaletteSet α) (p slot : Nat) (f : Rgb α → Rgb α) : PaletteSet α :=
  if s.isFixed slot then s
  else if s.isShared slot then
    match s.color? 0 0 with
    | some c => s.fillSlot 0 (f c)
    | none => s
  else s.modifyAt p slot f

/-- Puts a colour into a slot (`set_color`). -/
def setColor (s : PaletteSet α) (p slot : Nat) (c : Rgb α) : PaletteSet α := s.changeColor p slot fun _ => c

/-- Appends one slot to every palette; a palette without a seed gets `filler` (`add_slot`). -/
def addSlot (s : PaletteSet α) (filler : Rgb α) (seeds : List (Rgb α)) : PaletteSet α where
  zero := s.zero
  slots := s.slots + 1
  palettes := s.palettes.zipIdx.map fun (v, p) => v.push (seeds.getD p filler)

/-- Lengthens palettes to `n` slots by repeating the last colour (`PaletteSet.padded`). Palettes without a colour stay as
they are. -/
def padded (s : PaletteSet α) (n : Nat) : PaletteSet α :=
  if h : 0 < s.slots then
    { zero := s.zero
      slots := s.slots + (n - s.slots)
      palettes := s.palettes.map fun v => v ++ Vector.replicate (n - s.slots) v[s.slots - 1] }
  else s

/-! ## Making palette sets -/

/-- Palettes with one colour each, or with colour zero and one colour each (`from_seeds`). -/
def ofSeeds (zero : ColorZero) (shared transparent : Rgb α) (seeds : List (Rgb α)) : PaletteSet α :=
  match zero with
  | .unique => ⟨zero, 1, seeds.map fun c => #v[c]⟩
  | .shared => ⟨zero, 2, seeds.map fun c => #v[shared, c]⟩
  | _ => ⟨zero, 2, seeds.map fun c => #v[transparent, c]⟩

@[specialize] def map {β : Type} (f : Rgb α → Rgb β) (s : PaletteSet α) : PaletteSet β :=
  ⟨s.zero, s.slots, s.palettes.map fun v => v.map f⟩

/-! ## Views -/

section Scalar

variable [Scalar α]

/-- The colours as bytes (`to_uint8`). -/
def toBytes (s : PaletteSet α) : PaletteSet UInt8 := s.map Rgb.toBytes

def ofBytes (s : PaletteSet UInt8) : PaletteSet α := s.map Rgb.ofBytes

/-- Moves the colour of a slot a part of the way to a target (`move_color`). -/
def moveColor (s : PaletteSet α) (p slot : Nat) (target : Rgb α) (rate : α) : PaletteSet α :=
  s.changeColor p slot fun c => c.towards rate target

/-- Whether two lists of colours are equal as scalars. -/
def sameColors : List (Rgb α) → List (Rgb α) → Bool
  | [], [] => true
  | c :: cs, d :: ds => c.same d && sameColors cs ds
  | _, _ => false

/-- Whether two palette sets have the same policy, shape and colours (`same_as`). -/
def same (s t : PaletteSet α) : Bool :=
  s.zero == t.zero && s.size == t.size && s.slots == t.slots && sameColors s.toLists.flatten t.toLists.flatten

end Scalar

def describe (s : PaletteSet α) : String :=
  "PaletteSet(palettes=" ++ toString s.size ++ ", slots=" ++ toString s.slots ++ ", zero=" ++ s.zero.name ++ ")"

end PaletteSet

end Tessera
