import Mathlib
import Tessera.Hex
/-!
# Which texts are colours

A colour is documented as three or six hexadecimal digits, in either case, with a number sign in front or without.
The reader goes further, since it reads each pair of characters as an integer: a pair may be a sign and a digit, or a
digit with a blank on one side, and a digit may be the decimal digit of any script. `color?` says what is read, from
what each character stands for alone, and `parse_reads` says that the reader reads that and nothing else.
-/

namespace Tessera.Hex

/-! ## What a character stands for -/

/-- What a character can stand for in a colour. -/
inductive Mark where
  | digit (v : Nat)
  | plus
  | minus
  | blank
  | number
  | other
deriving DecidableEq, Repr

/-- The value of a digit. -/
def Mark.value? : Mark → Option Nat
  | .digit v => some v
  | _ => none

/-- What a character stands for. -/
def mark (c : Char) : Mark :=
  match Text.digitValue? 16 c with
  | some v => .digit v
  | none =>
    if c = '+' then .plus
    else if c = '-' then .minus
    else if c = '#' then .number
    else if Text.isNumberBlank c then .blank
    else .other

/-- The number that two marks stand for. -/
def pair? : Mark → Mark → Option Int
  | .digit x, .digit y => some (16 * x + y)
  | .plus, .digit y => some y
  | .minus, .digit y => some (-y)
  | .blank, .digit y => some y
  | .digit x, .blank => some x
  | _, _ => none

/-- The colour that a row of marks stands for: three digits, each of them doubled, or three pairs. -/
def color? : List Mark → Option (Rgb Int)
  | [a, b, c] => do
    let red ← a.value?
    let green ← b.value?
    let blue ← c.value?
    some ⟨17 * red, 17 * green, 17 * blue⟩
  | [a, b, c, d, e, f] => do
    let red ← pair? a b
    let green ← pair? c d
    let blue ← pair? e f
    some ⟨red, green, blue⟩
  | _ => none

/-- A row without one entry `x` in front. -/
def bare {α : Type} [DecidableEq α] (x : α) (t : List α) : List α := if t.head? = some x then t.tail else t

/-- The characters of a colour: trimmed, and without one leading number sign. -/
def body (s : String) : List Char := bare '#' (Text.trim s.toList)

/-- The texts that are documented: three or six hexadecimal digits. -/
def IsPlain (t : List Char) : Prop := (t.length = 3 ∨ t.length = 6) ∧ t.all fun c => (digit? c).isSome

instance (t : List Char) : Decidable (IsPlain t) := inferInstanceAs (Decidable (_ ∧ _))

/-- The characters that are read and not documented: signs, blanks and the digits of other scripts. -/
def IsLoose (c : Char) : Prop :=
  c = '+' ∨ c = '-' ∨ Text.isNumberBlank c = true ∨ digit? c = none ∧ (Text.decimalValue? c).isSome

instance (c : Char) : Decidable (IsLoose c) := inferInstanceAs (Decidable (_ ∨ _))

/-! ## Digits, signs and blanks are apart -/

/-- The ranges of digits. -/
def digitRanges : List (Nat × Nat) := (0x41, 0x46) :: (0x61, 0x66) :: Text.zeros.map fun z => (z, z + 9)

/-- The ranges of characters that stand for anything. -/
def ranges : List (Nat × Nat) := (0x23, 0x23) :: (0x2b, 0x2b) :: (0x2d, 0x2d) :: Text.blanks ++ digitRanges

theorem digitValue?_lt {c : Char} {v : Nat} (h : Text.digitValue? 16 c = some v) : v < 16 := by
  simpa using (Option.filter_eq_some_iff.mp h).2

theorem exists_digitRange {c : Char} {v : Nat} (h : Text.digitValue? 16 c = some v) :
    ∃ r ∈ digitRanges, r.1 ≤ c.toNat ∧ c.toNat ≤ r.2 := by
  have hv := digitValue?_lt h
  have hvalue := (Option.filter_eq_some_iff.mp h).1
  cases hd : Text.decimalValue? c with
  | some w =>
    obtain ⟨z, hz, -⟩ := Option.map_eq_some_iff.mp hd
    have hin := List.find?_some hz
    simp only [Bool.and_eq_true, decide_eq_true_eq] at hin
    exact ⟨(z, z + 9), by simp [digitRanges, List.mem_of_find?_eq_some hz], hin⟩
  | none =>
    rw [hd] at hvalue
    simp only [Char.le_def, UInt32.le_iff_toNat_le, Char.toNat_val, Bool.and_eq_true, decide_eq_true_eq] at hvalue
    have hsmall : 'a'.toNat = 97 ∧ 'z'.toNat = 122 ∧ 'A'.toNat = 65 ∧ 'Z'.toNat = 90 := by decide
    split_ifs at hvalue with hlower hupper
    · exact ⟨(0x61, 0x66), by simp [digitRanges], by simp at hvalue; omega, by simp at hvalue; omega⟩
    · exact ⟨(0x41, 0x46), by simp [digitRanges], by simp at hvalue; omega, by simp at hvalue; omega⟩

theorem exists_blankRange {c : Char} (h : Text.isNumberBlank c = true) :
    ∃ r ∈ Text.blanks, r.1 ≤ c.toNat ∧ c.toNat ≤ r.2 := by
  have hblank : Text.isBlank c = true := (Bool.and_eq_true _ _ ▸ h).1
  simpa [Text.isBlank] using hblank

theorem isNumberBlank_of_digit {c : Char} {v : Nat} (h : Text.digitValue? 16 c = some v) :
    Text.isNumberBlank c = false := by
  have hapart : ∀ b ∈ Text.blanks, ∀ d ∈ digitRanges, b.2 < d.1 ∨ d.2 < b.1 := by decide +kernel
  obtain ⟨d, hd, hdc⟩ := exists_digitRange h
  by_contra hblank
  obtain ⟨b, hb, hbc⟩ := exists_blankRange (by simpa using hblank)
  have := hapart b hb d hd
  omega

theorem value?_mark (c : Char) : (mark c).value? = Text.digitValue? 16 c := by
  unfold mark
  cases Text.digitValue? 16 c with
  | some v => rfl
  | none => split_ifs <;> rfl

theorem mark_sign_iff (c : Char) :
    (mark c = .plus ↔ c = '+') ∧ (mark c = .minus ↔ c = '-') ∧ (mark c = .number ↔ c = '#') := by
  have hsigns : mark '+' = .plus ∧ mark '-' = .minus ∧ mark '#' = .number := ⟨rfl, rfl, rfl⟩
  refine ⟨⟨?_, fun h => h ▸ hsigns.1⟩, ⟨?_, fun h => h ▸ hsigns.2.1⟩, ⟨?_, fun h => h ▸ hsigns.2.2⟩⟩ <;>
  · unfold mark
    cases Text.digitValue? 16 c <;> split_ifs <;> simp_all

theorem mark_blank_iff (c : Char) : mark c = .blank ↔ Text.isNumberBlank c = true := by
  constructor
  · unfold mark
    cases Text.digitValue? 16 c <;> split_ifs <;> simp_all
  · intro hblank
    have hdigit : Text.digitValue? 16 c = none := by
      by_contra hne
      obtain ⟨v, hv⟩ := Option.ne_none_iff_exists'.mp hne
      simp [isNumberBlank_of_digit hv] at hblank
    have hsigns : Text.isNumberBlank '+' = false ∧ Text.isNumberBlank '-' = false ∧ Text.isNumberBlank '#' = false :=
      ⟨rfl, rfl, rfl⟩
    have hplus : c ≠ '+' := by
      rintro rfl
      simp [hsigns.1] at hblank
    have hminus : c ≠ '-' := by
      rintro rfl
      simp [hsigns.2.1] at hblank
    have hnumber : c ≠ '#' := by
      rintro rfl
      simp [hsigns.2.2] at hblank
    rw [mark, hdigit]
    simp only [if_neg hplus, if_neg hminus, if_neg hnumber, if_pos hblank]

/-! ## A pair of characters -/

theorem mark_toLower (c : Char) : mark c.toLower = mark c := by
  have htable : ∀ n < 26, mark (Char.ofNat (0x41 + n)).toLower = mark (Char.ofNat (0x41 + n)) := by decide +kernel
  by_cases hupper : 0x41 ≤ c.toNat ∧ c.toNat ≤ 0x5a
  · have hsame := htable (c.toNat - 0x41) (by omega)
    rwa [Nat.add_sub_cancel' hupper.1, Char.ofNat_toNat] at hsame
  · have hsame : c.toLower = c := dif_neg hupper
    rw [hsame]

theorem digitValue?_of_toLower {c : Char} (h : c.toLower = 'x') : Text.digitValue? 16 c = none := by
  have hother : mark 'x' = .other := rfl
  rw [← value?_mark, ← mark_toLower, h, hother]
  rfl

theorem digitValue?_underscore : Text.digitValue? 16 '_' = none := rfl

theorem digitsFrom_one (c : Char) :
    Decimal.digitsFrom 16 0 0 false (Decimal.dropMark 16 [c]) = (Text.digitValue? 16 c).map (·, 1) := by
  by_cases hc : c = '_'
  · simp [hc, digitValue?_underscore, Decimal.dropMark, Decimal.digitsFrom]
  · cases hd : Text.digitValue? 16 c <;> simp [hd, hc, Decimal.dropMark, Decimal.digitsFrom]

theorem digitsFrom_two (a b : Char) :
    Decimal.digitsFrom 16 0 0 false (Decimal.dropMark 16 [a, b]) =
      (Text.digitValue? 16 a).bind fun x => (Text.digitValue? 16 b).map fun y => (16 * x + y, 2) := by
  by_cases hmark : a = '0' ∧ b.toLower = 'x'
  · -- The mark of the base stands alone: there are no digits behind it, and an x is no digit.
    have hb : Text.digitValue? 16 b = none := digitValue?_of_toLower hmark.2
    simp [hmark.1, hmark.2, hb, Decimal.dropMark, Decimal.digitsFrom]
  · have hdrop : Decimal.dropMark 16 [a, b] = [a, b] := by
      unfold Decimal.dropMark
      split
      · next heq => simp_all
      · rfl
    rw [hdrop, Decimal.digitsFrom]
    by_cases ha : a = '_'
    · simp [ha, digitValue?_underscore]
    · cases hx : Text.digitValue? 16 a with
      | none => simp [ha]
      | some x =>
        by_cases hb : b = '_'
        · simp [ha, hb, digitValue?_underscore, Decimal.digitsFrom]
        · cases hy : Text.digitValue? 16 b <;> simp [ha, hb, hy, Decimal.digitsFrom, Nat.mul_comm]

theorem trimBoth_pair (p : Char → Bool) (a b : Char) :
    Text.trimBoth p [a, b] = if p a then if p b then [] else [b] else if p b then [a] else [a, b] := by
  cases ha : p a <;> cases hb : p b <;> simp [Text.trimBoth, ha, hb]

theorem splitSign_cons (c : Char) (cs : List Char) :
    Decimal.splitSign (c :: cs) = if c = '-' then (true, cs) else if c = '+' then (false, cs) else (false, c :: cs) := by
  unfold Decimal.splitSign
  split <;> simp_all

/-- One character left of a pair is a digit. -/
theorem readInt?_of_trimBoth_one {s : List Char} {c : Char} (h : Text.trimBoth Text.isNumberBlank s = [c]) :
    Decimal.readInt? 16 s = (mark c).value?.map Int.ofNat := by
  rw [Decimal.readInt?, h, splitSign_cons, value?_mark]
  split_ifs with hminus hplus
  · rw [hminus]
    rfl
  · rw [hplus]
    rfl
  · simp only [digitsFrom_one]
    cases Text.digitValue? 16 c <;> rfl

/-- Two characters left of a pair are two digits or a sign and a digit. -/
theorem readInt?_of_trimBoth_two {s : List Char} {a b : Char} (h : Text.trimBoth Text.isNumberBlank s = [a, b]) :
    Decimal.readInt? 16 s =
      if mark a = .minus then (mark b).value?.map fun v : Nat => -(v : Int)
      else if mark a = .plus then (mark b).value?.map Int.ofNat
      else (mark a).value?.bind fun x : Nat => (mark b).value?.map fun y : Nat => (16 * x + y : Int) := by
  rw [Decimal.readInt?, h, splitSign_cons, value?_mark, value?_mark]
  by_cases hminus : a = '-'
  · rw [if_pos hminus, if_pos ((mark_sign_iff a).2.1.mpr hminus)]
    simp only [digitsFrom_one]
    cases Text.digitValue? 16 b <;> rfl
  rw [if_neg hminus, if_neg (mt (mark_sign_iff a).2.1.mp hminus)]
  by_cases hplus : a = '+'
  · rw [if_pos hplus, if_pos ((mark_sign_iff a).1.mpr hplus)]
    simp only [digitsFrom_one]
    cases Text.digitValue? 16 b <;> rfl
  rw [if_neg hplus, if_neg (mt (mark_sign_iff a).1.mp hplus)]
  simp only [digitsFrom_two]
  cases Text.digitValue? 16 a with
  | none => rfl
  | some x => cases Text.digitValue? 16 b <;> rfl

/-- Two characters are read as the number that their marks stand for. -/
theorem channel?_eq (a b : Char) : channel? a b = pair? (mark a) (mark b) := by
  have htrim := trimBoth_pair Text.isNumberBlank a b
  simp only [← mark_blank_iff] at htrim
  rw [channel?]
  by_cases ha : mark a = .blank <;> by_cases hb : mark b = .blank
  · rw [if_pos ha, if_pos hb] at htrim
    rw [Decimal.readInt?, htrim, ha, hb]
    rfl
  · rw [if_pos ha, if_neg hb] at htrim
    rw [readInt?_of_trimBoth_one htrim, ha]
    cases mark b <;> rfl
  · rw [if_neg ha, if_pos hb] at htrim
    rw [readInt?_of_trimBoth_one htrim, hb]
    cases mark a <;> rfl
  · rw [if_neg ha, if_neg hb] at htrim
    rw [readInt?_of_trimBoth_two htrim]
    generalize mark a = m at ha
    generalize mark b = n at hb
    cases m <;> cases n <;> first | rfl | exact absurd rfl ha | exact absurd rfl hb

/-! ## Lower case keeps the marks -/

/-- Ranges of characters that stand for nothing. Beyond the first 128 characters, they hold every letter that has a
lower case. -/
def idleRanges : List (Nat × Nat) := [
  (0xa1, 0x65f), (0x1c5a, 0x1fff), (0xa62a, 0xa8cf), (0x2060, 0x2fff), (0x104aa, 0x10d2f), (0x109a, 0x167f),
  (0xff1a, 0x1049f), (0xaa5a, 0xabef), (0x1173a, 0x118df), (0x16b5a, 0x1d7cd), (0x1e2fa, 0x1e94f), (0x67, 0x84)
]

theorem mark_of_idle {c : Char} {i : Nat × Nat} (hi : i ∈ idleRanges) (hc : i.1 ≤ c.toNat ∧ c.toNat ≤ i.2) :
    mark c = .other := by
  have hapart : ∀ i ∈ idleRanges, ∀ r ∈ ranges, i.2 < r.1 ∨ r.2 < i.1 := by decide +kernel
  have hout : ∀ r ∈ ranges, ¬ (r.1 ≤ c.toNat ∧ c.toNat ≤ r.2) := by
    intro r hr hin
    have := hapart i hi r hr
    omega
  cases hm : mark c with
  | digit v =>
    have hv : Text.digitValue? 16 c = some v := by rw [← value?_mark, hm, Mark.value?]
    obtain ⟨r, hr, hrc⟩ := exists_digitRange hv
    exact absurd hrc (hout r (by simp [ranges, hr]))
  | plus => exact absurd (by rw [(mark_sign_iff c).1.mp hm]; decide) (hout (0x2b, 0x2b) (by simp [ranges]))
  | minus => exact absurd (by rw [(mark_sign_iff c).2.1.mp hm]; decide) (hout (0x2d, 0x2d) (by simp [ranges]))
  | number => exact absurd (by rw [(mark_sign_iff c).2.2.mp hm]; decide) (hout (0x23, 0x23) (by simp [ranges]))
  | blank =>
    obtain ⟨r, hr, hrc⟩ := exists_blankRange ((mark_blank_iff c).mp hm)
    exact absurd hrc (hout r (by simp [ranges, hr]))
  | other => rfl

theorem mark_ofNat_of_idle {n : Nat} {i : Nat × Nat} (hi : i ∈ idleRanges) (hn : i.1 ≤ n ∧ n ≤ i.2) :
    mark (Char.ofNat n) = .other := by
  by_cases hvalid : n.isValidChar
  · have htoNat : (Char.ofNat n).toNat = n := by rw [Char.toNat_ofNat, if_pos hvalid]
    exact mark_of_idle hi (by rwa [htoNat])
  · -- A number that is no character gives the first character of all.
    have hzero : (Char.ofNat n).toNat = 0 := by rw [Char.toNat_ofNat, if_neg hvalid]
    have hnone : mark (Char.ofNat 0) = .other := rfl
    rwa [← hzero, Char.ofNat_toNat] at hnone

theorem lowerRuns_idle : ∀ run ∈ Text.lowerRuns, run.2.1 < 0x80 ∨
    (∃ i ∈ idleRanges, i.1 ≤ run.1 ∧ run.2.1 ≤ i.2) ∧
      ∃ i ∈ idleRanges, i.1 ≤ run.1 + run.2.2.2 ∧ run.2.1 + run.2.2.2 ≤ i.2 := by
  decide +kernel

/-- The lower case of a character stands for the same as the character, or it is longer and stands for nothing. -/
theorem map_mark_lowerChar (c : Char) :
    (Text.lowerChar c).map mark = [mark c] ∨ mark c = .other ∧ (Text.lowerChar c).map mark = [.other, .other] := by
  unfold Text.lowerChar
  split_ifs with hascii hdotted
  · exact .inl (by rw [List.map_singleton, mark_toLower])
  · have hc : c = Char.ofNat 0x130 := by rw [← Char.ofNat_toNat c, hdotted]
    have hidle : mark (Char.ofNat 0x130) = .other ∧ mark 'i' = .other ∧ mark (Char.ofNat 0x307) = .other :=
      ⟨rfl, rfl, rfl⟩
    exact .inr ⟨hc ▸ hidle.1, by rw [List.map_cons, List.map_singleton, hidle.2.1, hidle.2.2]⟩
  · split
    · next first last stride shift hrun =>
      have hin := List.find?_some hrun
      simp only [Bool.and_eq_true, decide_eq_true_eq] at hin
      rcases lowerRuns_idle _ (List.mem_of_find?_eq_some hrun) with hlow | ⟨⟨i, hi, hic⟩, j, hj, hjc⟩
      · exact absurd hin.1.2 (by simp only at hlow; omega)
      · have hc : mark c = .other := mark_of_idle hi (by simp only at hic; omega)
        have hd : mark (Char.ofNat (c.toNat + shift).toNat) = .other :=
          mark_ofNat_of_idle hj (by simp only at hjc; omega)
        exact .inl (by rw [List.map_singleton, hc, hd])
    · exact .inl rfl

theorem mark_sigma : mark Text.capitalSigma = .other ∧ mark Text.finalSigma = .other := ⟨rfl, rfl⟩

theorem map_mark_lowerFrom (before t : List Char) :
    (Text.lowerFrom before t).map mark = t.map mark ∨
      .other ∈ t.map mark ∧ .other ∈ (Text.lowerFrom before t).map mark := by
  induction t generalizing before with
  | nil => exact .inl rfl
  | cons c cs ih =>
    rw [Text.lowerFrom, List.map_append, List.map_cons]
    generalize hfront : (if c = Text.capitalSigma ∧ Text.endsWord before cs then [Text.finalSigma]
      else Text.lowerChar c) = front
    have hhead : front.map mark = [mark c] ∨ mark c = .other ∧ front.map mark = [.other, .other] := by
      rw [← hfront]
      split_ifs with hsigma
      · -- A capital sigma and its two small letters all stand for nothing.
        exact .inl (by rw [hsigma.1, mark_sigma.1, List.map_singleton, mark_sigma.2])
      · exact map_mark_lowerChar c
    rcases hhead with hsame | ⟨hnone, hlong⟩
    · rw [hsame]
      rcases ih (c :: before) with hrest | ⟨hin, hout⟩
      · exact .inl (by rw [hrest, List.singleton_append])
      · exact .inr ⟨List.mem_cons_of_mem _ hin, List.mem_append_right _ hout⟩
    · exact .inr ⟨hnone ▸ List.mem_cons_self, List.mem_append_left _ (hlong ▸ List.mem_cons_self)⟩

/-! ## The whole text -/

theorem pair?_self (m : Mark) : pair? m m = m.value?.map fun v : Nat => (17 * v : Int) := by
  cases m with
  | digit v => simp only [pair?, Mark.value?, Option.map_some, Option.some.injEq]; ring
  | _ => rfl

/-- Three marks are read as six, each of them twice. -/
theorem color?_three (a b c : Mark) : color? [a, b, c] = color? [a, a, b, b, c, c] := by
  simp only [color?, pair?_self, Option.bind_eq_bind, Option.bind_map, Function.comp_def]

theorem color?_of_length {ms : List Mark} (hthree : ms.length ≠ 3) (hsix : ms.length ≠ 6) : color? ms = none := by
  unfold color?
  split
  · exact absurd rfl hthree
  · exact absurd rfl hsix
  · rfl

theorem map_mark_bare (t : List Char) : (bare '#' t).map mark = bare .number (t.map mark) := by
  cases t with
  | nil => rfl
  | cons c cs =>
    have hnumber := (mark_sign_iff c).2.2
    by_cases hc : c = '#' <;> simp_all [bare]

theorem other_mem_bare {ms : List Mark} (h : .other ∈ ms) : .other ∈ bare .number ms := by
  unfold bare
  split_ifs with hhead
  · cases ms with
    | nil => exact h
    | cons m ms => simp_all
  · exact h

theorem payload_eq {s t : List Char} (ht : bare '#' (Text.lower (Text.trim s)) = t) :
    payload s = if t.length = 3 then t.flatMap fun c => [c, c] else t := by
  subst ht
  unfold payload
  generalize Text.lower (Text.trim s) = u
  cases u with
  | nil => rfl
  | cons c cs => by_cases hc : c = '#' <;> simp [bare, hc]

theorem length_eq_six {t : List Char} (h : t.length = 6) : ∃ a b c d e f, t = [a, b, c, d, e, f] := by
  match t, h with
  | [a, b, c, d, e, f], _ => exact ⟨a, b, c, d, e, f, rfl⟩

theorem parse_of_payload {s : String} {a b c d e f : Char} (h : payload s.toList = [a, b, c, d, e, f]) :
    parse s = (color? [mark a, mark b, mark c, mark d, mark e, mark f]).elim (.error (.hexDigits s)) .ok := by
  simp only [parse, h, channel?_eq, color?]
  cases pair? (mark a) (mark b) with
  | none => rfl
  | some red =>
    cases pair? (mark c) (mark d) with
    | none => rfl
    | some green => cases pair? (mark e) (mark f) <;> rfl

/-- The colour of the marks of a text in lower case is read, and a text that has none is refused: for its length, or
else for its characters. -/
theorem parse_eq_lower {s : String} {t : List Char} (ht : bare '#' (Text.lower (Text.trim s.toList)) = t) :
    parse s = (color? (t.map mark)).elim
      (.error (if t.length = 3 ∨ t.length = 6 then .hexDigits s else .hexLength s)) .ok := by
  have hpayload := payload_eq ht
  by_cases hthree : t.length = 3
  · obtain ⟨a, b, c, rfl⟩ := List.length_eq_three.mp hthree
    rw [parse_of_payload hpayload, if_pos (.inl hthree), List.map_cons, List.map_cons, List.map_singleton, color?_three]
  · rw [if_neg hthree] at hpayload
    by_cases hsix : t.length = 6
    · obtain ⟨a, b, c, d, e, f, rfl⟩ := length_eq_six hsix
      rw [parse_of_payload hpayload, if_pos (.inr hsix)]
      rfl
    · have hnone : color? (t.map mark) = none := color?_of_length (by simpa using hthree) (by simpa using hsix)
      rw [if_neg (by simp [hthree, hsix]), hnone, parse, hpayload]
      split
      · exact absurd rfl hsix
      · rfl

/-! ## Lower case and capitals -/

theorem value?_eq_some {m : Mark} {v : Nat} (h : m.value? = some v) : m = .digit v := by
  cases m <;> simp_all [Mark.value?]

/-- The marks of a colour are three digits or six marks in pairs that stand for numbers. -/
theorem color?_cases {ms : List Mark} {col : Rgb Int} (h : color? ms = some col) :
    (∃ x y z, ms = [.digit x, .digit y, .digit z] ∧ col = ⟨17 * x, 17 * y, 17 * z⟩) ∨
      ∃ a b c d e f, ms = [a, b, c, d, e, f] ∧
        pair? a b = some col.r ∧ pair? c d = some col.g ∧ pair? e f = some col.b := by
  unfold color? at h
  split at h
  · next a b c =>
    simp only [Option.bind_eq_bind, Option.bind_eq_some_iff, Option.some.injEq] at h
    obtain ⟨x, hx, y, hy, z, hz, rfl⟩ := h
    exact .inl ⟨x, y, z, by rw [value?_eq_some hx, value?_eq_some hy, value?_eq_some hz], rfl⟩
  · next a b c d e f =>
    simp only [Option.bind_eq_bind, Option.bind_eq_some_iff, Option.some.injEq] at h
    obtain ⟨red, hred, green, hgreen, blue, hblue, rfl⟩ := h
    exact .inr ⟨a, b, c, d, e, f, rfl, hred, hgreen, hblue⟩
  · simp at h

/-- A pair has a digit, and beside it a digit, a sign or a blank. -/
theorem pair?_cases {a b : Mark} {n : Int} (h : pair? a b = some n) :
    ∃ y : Nat, (∃ x, a = .digit x ∧ b = .digit y ∧ n = 16 * x + y) ∨
      a = .plus ∧ b = .digit y ∧ n = y ∨ a = .minus ∧ b = .digit y ∧ n = -y ∨
      a = .blank ∧ b = .digit y ∧ n = y ∨ a = .digit y ∧ b = .blank ∧ n = y := by
  unfold pair? at h
  split at h <;> simp_all

theorem pair?_marks {a b : Mark} {n : Int} (h : pair? a b = some n) : ∀ m ∈ [a, b], m ≠ .other ∧ m ≠ .number := by
  obtain ⟨y, ⟨x, rfl, rfl, -⟩ | ⟨rfl, rfl, -⟩ | ⟨rfl, rfl, -⟩ | ⟨rfl, rfl, -⟩ | ⟨rfl, rfl, -⟩⟩ :=
    pair?_cases h <;>
  simp

/-- Every mark of a colour is a digit, a sign or a blank. -/
theorem color?_marks {ms : List Mark} {col : Rgb Int} (h : color? ms = some col) :
    (ms.length = 3 ∨ ms.length = 6) ∧ ∀ m ∈ ms, m ≠ .other ∧ m ≠ .number := by
  rcases color?_cases h with ⟨x, y, z, rfl, -⟩ | ⟨a, b, c, d, e, f, rfl, hred, hgreen, hblue⟩
  · exact ⟨.inl rfl, by simp⟩
  · refine ⟨.inr rfl, fun m hm => ?_⟩
    have hsplit : m ∈ [a, b] ∨ m ∈ [c, d] ∨ m ∈ [e, f] := by simpa [or_assoc] using hm
    rcases hsplit with hm | hm | hm
    · exact pair?_marks hred m hm
    · exact pair?_marks hgreen m hm
    · exact pair?_marks hblue m hm

theorem color?_of_mem {ms : List Mark} (h : .other ∈ ms) : color? ms = none := by
  by_contra hne
  obtain ⟨col, hcol⟩ := Option.ne_none_iff_exists'.mp hne
  exact ((color?_marks hcol).2 _ h).1 rfl

/-- A text stands for the same colour in lower case. -/
theorem color?_lower (t : List Char) :
    color? ((bare '#' (Text.lower t)).map mark) = color? ((bare '#' t).map mark) := by
  rw [map_mark_bare, map_mark_bare]
  rw [Text.lower]
  rcases map_mark_lowerFrom [] t with hsame | ⟨hin, hout⟩
  · rw [hsame]
  · rw [color?_of_mem (other_mem_bare hin), color?_of_mem (other_mem_bare hout)]

/-- A text is read as the colour that its characters stand for. A text that stands for none is refused. -/
theorem parse_eq (s : String) :
    parse s = (color? ((body s).map mark)).elim
      (.error (if (bare '#' (Text.lower (Text.trim s.toList))).length = 3 ∨
        (bare '#' (Text.lower (Text.trim s.toList))).length = 6 then .hexDigits s else .hexLength s)) .ok := by
  rw [parse_eq_lower rfl, color?_lower, body]

theorem parse_eq_ok_iff (s : String) (c : Rgb Int) : parse s = .ok c ↔ color? ((body s).map mark) = some c := by
  rw [parse_eq]
  cases color? ((body s).map mark) <;> simp

/-! ## Documented texts -/

theorem digit?_eq (c : Char) : digit? c =
    if 0x30 ≤ c.toNat ∧ c.toNat ≤ 0x39 then some (c.toNat - 48)
    else if 0x61 ≤ c.toNat ∧ c.toNat ≤ 0x66 then some (c.toNat - 87)
    else if 0x41 ≤ c.toNat ∧ c.toNat ≤ 0x46 then some (c.toNat - 55)
    else none := rfl

theorem digitValue?_of_digit? {c : Char} {v : Nat} (h : digit? c = some v) : Text.digitValue? 16 c = some v := by
  have hdecimal : ∀ n < 10, Text.digitValue? 16 (Char.ofNat (0x30 + n)) = some n := by decide +kernel
  have hletter : ∀ n < 6, Text.digitValue? 16 (Char.ofNat (0x61 + n)) = some (10 + n) ∧
      Text.digitValue? 16 (Char.ofNat (0x41 + n)) = some (10 + n) := by decide +kernel
  rw [digit?_eq] at h
  split_ifs at h with hzero hsmall hcapital
  · have hv := hdecimal (c.toNat - 0x30) (by omega)
    rwa [Nat.add_sub_cancel' hzero.1, Char.ofNat_toNat, h] at hv
  · have hv := (hletter (c.toNat - 0x61) (by omega)).1
    rw [Nat.add_sub_cancel' hsmall.1, Char.ofNat_toNat] at hv
    rw [hv, ← h]
    congr 1
    omega
  · have hv := (hletter (c.toNat - 0x41) (by omega)).2
    rw [Nat.add_sub_cancel' hcapital.1, Char.ofNat_toNat] at hv
    rw [hv, ← h]
    congr 1
    omega

/-- A digit that is not documented is a decimal digit. -/
theorem decimalValue?_of_digitValue? {c : Char} {v : Nat} (h : Text.digitValue? 16 c = some v)
    (hplain : digit? c = none) : (Text.decimalValue? c).isSome := by
  by_contra hnone
  have hd : Text.decimalValue? c = none := by simpa using hnone
  obtain ⟨r, hr, hrc⟩ := exists_digitRange h
  rw [digit?_eq] at hplain
  split_ifs at hplain with hzero hsmall hcapital
  simp only [digitRanges, List.mem_cons, List.mem_map] at hr
  rcases hr with rfl | rfl | ⟨z, hz, rfl⟩
  · exact hcapital hrc
  · exact hsmall hrc
  · have hnot := List.find?_eq_none.mp (Option.map_eq_none_iff.mp hd) z hz
    simp at hnot hrc
    omega

theorem mark_of_digit? {c : Char} {v : Nat} (h : digit? c = some v) : mark c = .digit v := by
  rw [mark, digitValue?_of_digit? h]

/-- The number of a pair lies between the greatest digit with a minus and two greatest digits. -/
theorem pair?_bounds {a b : Mark} {n : Int} (h : pair? a b = some n) (hsmall : ∀ m ∈ [a, b], ∀ v ∈ m.value?, v < 16) :
    -15 ≤ n ∧ n ≤ 255 := by
  obtain ⟨y, ⟨x, rfl, rfl, hn⟩ | ⟨rfl, rfl, hn⟩ | ⟨rfl, rfl, hn⟩ | ⟨rfl, rfl, hn⟩ | ⟨rfl, rfl, hn⟩⟩ :=
    pair?_cases h <;>
  · simp [Mark.value?] at hsmall
    omega

theorem parse_bounds {s : String} {col : Rgb Int} (h : parse s = .ok col) :
    ∀ n ∈ [col.r, col.g, col.b], -15 ≤ n ∧ n ≤ 255 := by
  have hsmall : ∀ m ∈ (body s).map mark, ∀ v ∈ m.value?, v < 16 := by
    intro m hm v hv
    obtain ⟨c, -, rfl⟩ := List.mem_map.mp hm
    rw [value?_mark] at hv
    exact digitValue?_lt hv
  have hcolor := (parse_eq_ok_iff s col).mp h
  generalize (body s).map mark = ms at hsmall hcolor
  rcases color?_cases hcolor with ⟨x, y, z, rfl, rfl⟩ | ⟨a, b, c, d, e, f, rfl, hred, hgreen, hblue⟩
  · simp [Mark.value?] at hsmall ⊢
    omega
  · have hr := pair?_bounds hred fun m hm => hsmall m (List.mem_append_left [c, d, e, f] hm)
    have hg := pair?_bounds hgreen fun m hm =>
      hsmall m (List.mem_append_right [a, b] (List.mem_append_left [e, f] hm))
    have hb := pair?_bounds hblue fun m hm => hsmall m (List.mem_append_right [a, b, c, d] hm)
    simpa using ⟨hr, hg, hb⟩

/-- Without loose characters, what is read is what is documented. -/
theorem isPlain_of_parse {s : String} {col : Rgb Int} (h : parse s = .ok col) (hstrict : ∀ c ∈ body s, ¬ IsLoose c) :
    IsPlain (body s) := by
  obtain ⟨hlength, hmarks⟩ := color?_marks ((parse_eq_ok_iff s col).mp h)
  refine ⟨by simpa using hlength, List.all_eq_true.mpr fun c hc => ?_⟩
  obtain ⟨hother, hnumber⟩ := hmarks _ (List.mem_map_of_mem hc)
  have hloose := hstrict c hc
  by_contra hplain
  rw [Option.not_isSome_iff_eq_none] at hplain
  cases hm : mark c with
  | digit v =>
    have hv : Text.digitValue? 16 c = some v := by rw [← value?_mark, hm, Mark.value?]
    exact hloose (.inr (.inr (.inr ⟨hplain, decimalValue?_of_digitValue? hv hplain⟩)))
  | plus => exact hloose (.inl ((mark_sign_iff c).1.mp hm))
  | minus => exact hloose (.inr (.inl ((mark_sign_iff c).2.1.mp hm)))
  | blank => exact hloose (.inr (.inr (.inl ((mark_blank_iff c).mp hm))))
  | number => exact hnumber hm
  | other => exact hother hm

theorem map_mark_of_digit? {t : List Char} (vs : List Nat) (h : t.map digit? = vs.map some) :
    t.map mark = vs.map .digit := by
  induction t generalizing vs with
  | nil => simp_all
  | cons c cs ih =>
    cases vs with
    | nil => simp at h
    | cons v vs =>
      obtain ⟨hc, hcs⟩ := List.cons.inj h
      rw [List.map_cons, List.map_cons, mark_of_digit? hc, ih vs hcs]

theorem parse_three {s : String} {x y z : Nat} (h : (body s).map digit? = [some x, some y, some z]) :
    parse s = .ok ⟨17 * x, 17 * y, 17 * z⟩ := by
  have hmarks : (body s).map mark = [.digit x, .digit y, .digit z] := map_mark_of_digit? [x, y, z] h
  rw [parse_eq_ok_iff, hmarks]
  rfl

theorem parse_six {s : String} {u v w x y z : Nat}
    (h : (body s).map digit? = [some u, some v, some w, some x, some y, some z]) :
    parse s = .ok ⟨16 * u + v, 16 * w + x, 16 * y + z⟩ := by
  have hmarks : (body s).map mark = [.digit u, .digit v, .digit w, .digit x, .digit y, .digit z] :=
    map_mark_of_digit? [u, v, w, x, y, z] h
  rw [parse_eq_ok_iff, hmarks]
  rfl

theorem parse_of_isPlain {s : String} (h : IsPlain (body s)) :
    ∃ col, parse s = .ok col ∧ ∀ n ∈ [col.r, col.g, col.b], 0 ≤ n ∧ n ≤ 255 := by
  obtain ⟨hlength, hdigits⟩ := h
  -- The upper bound is that of every text. What is left is that no channel is negative.
  suffices hread : ∃ col, parse s = .ok col ∧ ∀ n ∈ [col.r, col.g, col.b], 0 ≤ n by
    obtain ⟨col, hcol, hnonneg⟩ := hread
    exact ⟨col, hcol, fun n hn => ⟨hnonneg n hn, (parse_bounds hcol n hn).2⟩⟩
  have hsome : ∀ c ∈ body s, digit? c = some ((digit? c).getD 0) := by
    intro c hc
    obtain ⟨v, hv⟩ := Option.isSome_iff_exists.mp (List.all_eq_true.mp hdigits c hc)
    rw [hv, Option.getD_some]
  have hmap := List.map_congr_left hsome
  rcases hlength with hthree | hsix
  · obtain ⟨a, b, c, hbody⟩ := List.length_eq_three.mp hthree
    rw [hbody] at hmap
    exact ⟨_, parse_three (by rw [hbody]; exact hmap), by simp⟩
  · obtain ⟨a, b, c, d, e, f, hbody⟩ := length_eq_six hsix
    rw [hbody] at hmap
    exact ⟨_, parse_six (by rw [hbody]; exact hmap), by simp; omega⟩

/-- The reader reads a text exactly as its characters stand, whatever the text is. What it reads may be as small as -15.
Documented texts are read as documented: three digits are doubled, six digits are taken in pairs, and every channel is
a byte. The reader accepts other texts too, and each of these has a sign, a blank or a digit of another script. -/
theorem parse_reads (s : String) :
    (parse s = (color? ((body s).map mark)).elim
      (.error (if (bare '#' (Text.lower (Text.trim s.toList))).length = 3 ∨
        (bare '#' (Text.lower (Text.trim s.toList))).length = 6 then .hexDigits s else .hexLength s)) .ok) ∧
    (∀ col, parse s = .ok col → ∀ n ∈ [col.r, col.g, col.b], -15 ≤ n ∧ n ≤ 255) ∧
    (∀ x y z, (body s).map digit? = [some x, some y, some z] → parse s = .ok ⟨17 * x, 17 * y, 17 * z⟩) ∧
    (∀ u v w x y z, (body s).map digit? = [some u, some v, some w, some x, some y, some z] →
      parse s = .ok ⟨16 * u + v, 16 * w + x, 16 * y + z⟩) ∧
    (IsPlain (body s) → ∃ col, parse s = .ok col ∧ ∀ n ∈ [col.r, col.g, col.b], 0 ≤ n ∧ n ≤ 255) ∧
    ((∀ c ∈ body s, ¬ IsLoose c) → ((∃ col, parse s = .ok col) ↔ IsPlain (body s))) := by
  refine ⟨parse_eq s, fun col => parse_bounds, fun x y z => parse_three, fun u v w x y z => parse_six, parse_of_isPlain,
    fun hstrict => ⟨?_, ?_⟩⟩
  · rintro ⟨col, hcol⟩
    exact isPlain_of_parse hcol hstrict
  · intro hplain
    obtain ⟨col, hcol, -⟩ := parse_of_isPlain hplain
    exact ⟨col, hcol⟩

theorem parse_reads_orchid :
    parse " #dA70d6" = .ok ⟨218, 112, 214⟩ ∧ parse "#dA7" = .ok ⟨221, 170, 119⟩ ∧ IsPlain (body "#dA7") := by
  have hstrict : ∀ c ∈ body "#dA7", ¬ IsLoose c := by
    have hbody : body "#dA7" = ['d', 'A', '7'] := rfl
    rw [hbody]
    simp only [List.forall_mem_cons, List.not_mem_nil, false_imp_iff, implies_true, and_true]
    exact ⟨by decide, by decide, by decide⟩
  exact ⟨(parse_reads _).2.2.2.1 13 10 7 0 13 6 rfl, (parse_reads _).2.2.1 13 10 7 rfl,
    ((parse_reads "#dA7").2.2.2.2.2 hstrict).mp ⟨_, (parse_reads _).2.2.1 13 10 7 rfl⟩⟩

/-- Texts that are read and are not three or six hexadecimal digits: with signs, with blanks, with digits of another
script. A minus takes a channel out of the range of a byte. -/
theorem parse_not_plain :
    (parse "+1+2+3" = .ok ⟨1, 2, 3⟩ ∧ ¬ IsPlain (body "+1+2+3")) ∧
    (parse "-1-2-3" = .ok ⟨-1, -2, -3⟩ ∧ ¬ IsPlain (body "-1-2-3")) ∧
    (parse "# 1 1 1" = .ok ⟨1, 1, 1⟩ ∧ ¬ IsPlain (body "# 1 1 1")) ∧
    (parse "١٢٣" = .ok ⟨17, 34, 51⟩ ∧ ¬ IsPlain (body "١٢٣")) := by
  refine ⟨⟨rfl, ?_⟩, ⟨rfl, ?_⟩, ⟨rfl, ?_⟩, ⟨rfl, ?_⟩⟩ <;> decide

end Tessera.Hex
