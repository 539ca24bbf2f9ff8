import Tessera.Hex
/-!
# The log

Durations, numbers and pairs as they are shown to the user, and the lines of the log.
-/

namespace Tessera.Report

/-- How often a minute goes into a real number of seconds, by rounding down. -/
def realMinutes (x : Float) : Float :=
  let quotient := (x - Number.realMod x 60.0) / 60.0
  let down := quotient.floor
  if quotient - down > 0.5 then down + 1.0 else down

/-- The whole minutes of a duration of a minute or more, and the seconds that are left. -/
def minutes (s : Number) : Result (Int × Number) := do
  let m ← match s with
    | .whole n => pure (Int.fdiv n 60)
    | .real x => Number.truncateReal (realMinutes x)
  let left ← s.sub (.whole (60 * m))
  pure (m, left)

/-- The nearest whole number of seconds; a half goes to the even neighbour. -/
def wholeSeconds : Number → Int
  | .whole n => n
  | .real x =>
    let v := Decimal.decode x
    let n := Decimal.roundDiv v.num v.den
    if Decimal.isNegative x then -(n : Int) else n

def milliseconds (s : Number) : Result String := do
  let x ← s.toFloat
  pure (Decimal.fixed 1 (x * 1000.0) ++ "ms")

/-- A duration: milliseconds below a second, then seconds, then minutes and seconds (`format_seconds_compact`). -/
def duration (s : Number) : Result String :=
  if s.lt (.whole 1) then milliseconds s
  else if s.lt (.whole 60) then do
    let x ← s.toFloat
    pure (Decimal.fixed 3 x ++ "s")
  else do
    let (m, rest) ← minutes s
    let x ← rest.toFloat
    pure (toString m ++ "m " ++ Decimal.fixed 1 x ++ "s")

def longDuration (s : Number) : Result String := do
  let (m, rest) ← minutes s
  pure (toString m ++ "m " ++ toString (wholeSeconds rest) ++ "s")

def shortDuration (s : Number) : Result String := do
  let x ← s.toFloat
  pure (Decimal.fixed 1 x ++ "s")

/-- The duration of a whole job, with fewer digits (`format_total_duration_compact`). What is not comparable counts as short.
-/
def totalDuration (s : Number) : Result String :=
  if Number.le (.whole 60) s then longDuration s else if Number.le (.whole 1) s then shortDuration s else milliseconds s

/-- Drops a run of one character from the end. -/
def dropEnd (c : Char) (s : List Char) : List Char := (s.reverse.dropWhile (· == c)).reverse

/-- A truth value as on or off; anything else as it is (`format_bool_on_off`). -/
def onOff : Value → String
  | .bool b => if b then "on" else "off"
  | v => v.display

/-- Integers with groups of three, floating-point numbers with at most three places (`format_number_compact`). -/
def number : Value → String
  | .int n => Decimal.grouped n
  | .float x => String.ofList (dropEnd '.' (dropEnd '0' (Decimal.fixed 3 x).toList))
  | v => onOff v

def pair (eq name : String) (v : Value) : String := name ++ eq ++ number v

/-- Named values in a row (`key_value_pairs_to_string`). -/
def pairs (sep eq : String) (vs : List (String × Value)) : String := sep.intercalate (vs.map fun (name, v) => pair eq name v)

/-- A named value that is given as one value with two parts. -/
def pairGiven (eq : String) (v : Value) : Result String := do
  match ← v.parts with
  | [name, value] => pure (pair eq name.display value)
  | _ => refuse .shape

/-- Named values in a row that are given as one value. What stands between them has to be a text. -/
def pairsGiven (sep eq vs : Value) : Result String := do
  let shown ← (← vs.parts).mapM (pairGiven eq.display)
  match sep with
  | .text sep => pure (sep.intercalate shown)
  | _ => refuse .member

def summary (vs : List (String × Value)) : String := pairs "  " ": " vs

/-- A text that is shown. There must not be half a character in it. -/
def shown (s : String) : Result String := if Text.isWhole s then pure s else refuse .letters

/-- A line of the log (`log`). -/
def line (s : String) : String := s ++ "\n"

/-- A line for those who look inside (`debug_log`). -/
def debugLine (s : String) : String := line ("[debug] " ++ s)

/-- A warning (`warn`). -/
def warning (s : String) : String := line ("[warn] " ++ s)

/-- A failure (`error`). -/
def failure (s : String) : String := line ("[error] " ++ s)

/-- The heading of a section (`print_banner`). -/
def banner (title : String) : String := line ("\n=== " ++ title ++ " ===")

/-- A section name with named values (`print_config_line`). -/
def configuration (heading : String) (vs : List (String × Value)) : String :=
  "[" ++ heading ++ "] " ++ summary vs

/-- A section name with named values that are given as values. -/
def configurationGiven (heading vs : Value) : Result String := do
  pure ("[" ++ heading.display ++ "] " ++ (← pairsGiven (.text "  ") (.text ": ") vs))

/-- A message that overwrites the current line of a terminal; the last one ends the line (`print_progress_line`). -/
def progressLine (message : String) (last : Bool) : String :=
  "\r\x1b[K" ++ message ++ (if last then "\n" else "")

/-- A message that overwrites the current line, given as a value. It has to be a text. -/
def progressLineGiven (message last : Value) : Result String :=
  match message with
  | .text s => pure (progressLine s last.isTrue)
  | _ => refuse .kind

def padLeft (width : Nat) (s : String) : String :=
  String.ofList (List.replicate (width - s.length) ' ') ++ s

end Tessera.Report
