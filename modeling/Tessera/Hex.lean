import Tessera.Number
import Tessera.Rgb
import Tessera.Text.Lower
/-!
# Colours as text

A colour is given as three or six hexadecimal digits, with a number sign in front or without. Each pair of
characters is read as an integer, so a sign or a blank may stand in place of its first digit.
-/

namespace Tessera.Hex

/-- The characters that carry the digits: trimmed, in lower case, without one leading number sign, and with
each of three characters doubled. -/
def payload (s : List Char) : List Char :=
  let t := Text.lower (Text.trim s)
  let t := match t with
    | '#' :: rest => rest
    | t => t
  if t.length = 3 then t.flatMap fun c => [c, c] else t

def channel? (a b : Char) : Option Int := Decimal.readInt? 16 [a, b]

/-- The colour of a text (`hex_to_rgb`). -/
def parse (s : String) : Result (Rgb Int) :=
  match payload s.toList with
  | [a, b, c, d, e, f] =>
    match channel? a b, channel? c d, channel? e f with
    | some red, some green, some blue => pure ⟨red, green, blue⟩
    | _, _, _ => .error (.hexDigits s)
  | _ => .error (.hexLength s)

/-- The colour of a setting, which has to be a text. -/
def ofValue : Value → Result (Rgb Int)
  | .text s => parse s
  | _ => refuse .member

/-- One channel of a list of values as two hexadecimal digits, or more where the number is out of range. -/
def pair (vs : List Value) (i : Nat) : Result String :=
  match vs[i]? with
  | some v => v.integer.map Decimal.hexPair
  | none => refuse .position

/-- The text of the first three of a list of values (`rgb_to_hex`). -/
def render (vs : List Value) : Result String := do
  let red ← pair vs 0
  let green ← pair vs 1
  let blue ← pair vs 2
  pure ("#" ++ red ++ green ++ blue)

/-- The text of a value that has parts in order. -/
def renderValue (v : Value) : Result String := do render (← v.parts)

/-! ## Bytes -/

def digit? (c : Char) : Option Nat :=
  if '0' ≤ c ∧ c ≤ '9' then some (c.toNat - 48)
  else if 'a' ≤ c ∧ c ≤ 'f' then some (c.toNat - 87)
  else if 'A' ≤ c ∧ c ≤ 'F' then some (c.toNat - 55)
  else none

/-- Whether a character may stand between bytes: a space, a tab or the end of a line or page. -/
def isGap (c : Char) : Bool := c = ' ' || decide (9 ≤ c.toNat ∧ c.toNat ≤ 13)

/-- The bytes of a row of digits, two for each byte. Gaps may stand between bytes. -/
def readBytes? : List Char → Option (List UInt8)
  | [] => some []
  | [c] => if isGap c then some [] else none
  | a :: b :: rest =>
    if isGap a then readBytes? (b :: rest)
    else
      match digit? a, digit? b, readBytes? rest with
      | some x, some y, some bs => some ((16 * x + y).toUInt8 :: bs)
      | _, _, _ => none

def byte (b : UInt8) : List Char := Text.hexDigits 2 b.toNat

def bytes (c : Rgb UInt8) : String := String.ofList (byte c.r ++ byte c.g ++ byte c.b)

end Tessera.Hex
