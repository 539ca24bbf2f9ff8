/-!
# White space

Two sets of blanks. Text is trimmed of every white-space character. Around a number the four information
separators `U+001C … U+001F` are not blanks.
-/

namespace Tessera.Text

def blanks : List (Nat × Nat) := [
  (0x9, 0xd), (0x1c, 0x20), (0x85, 0x85), (0xa0, 0xa0), (0x1680, 0x1680), (0x2000, 0x200a),
  (0x2028, 0x2029), (0x202f, 0x202f), (0x205f, 0x205f), (0x3000, 0x3000)
]

def isBlank (c : Char) : Bool := blanks.any fun (a, b) => a ≤ c.toNat && c.toNat ≤ b

/-- White space that may stand around a number. -/
def isNumberBlank (c : Char) : Bool := isBlank c && !(0x1c ≤ c.toNat && c.toNat ≤ 0x1f)

/-- Drops characters of a class from both ends. -/
def trimBoth (p : Char → Bool) (s : List Char) : List Char :=
  ((s.dropWhile p).reverse.dropWhile p).reverse

def trim (s : List Char) : List Char := trimBoth isBlank s

end Tessera.Text
