import SequenceXmi.Text.Digit
import SequenceXmi.Text.Split
import SequenceXmi.Toml.Value

/-! # Numbers, dates and truth values

The values that TOML writes without quotes or brackets.

A number is looked at twice. At first sight it has to have the form of a number, where underscores
may stand between digits. Only its value shows whether it fits: integers into 128 bits, floating
point numbers into the range of doubles. What stands between the underscores of a decimal integer
is no matter of form; if it is no digit, the number has no value and does not fit.

Dates follow the calendar, and the seconds of a time may be left out. -/

namespace SequenceXmi.Toml

open Text (digitValue? digits? splitOn)

/-! ## Signs -/

/-- A sign, if there is one, and what follows it. -/
def sign (text : List Char) : Option Char × List Char :=
  match text with
  | '+' :: rest => (some '+', rest)
  | '-' :: rest => (some '-', rest)
  | _ => (none, text)

/-! ## Underscores -/

/-- Whether underscores stand where they may: each between two digits. The class says what a digit
is. -/
def underscoresFit (isDigit : Char → Bool) (text : List Char) : Bool :=
  let groups := splitOn '_' text
  groups.dropLast.all (fun group => group.getLast?.any isDigit) &&
    groups.tail.all (fun group => group.head?.any isDigit)

/-- The text without its underscores. -/
def withoutUnderscores (text : List Char) : List Char := text.filter (· != '_')

/-- A digit of any base. -/
def isAnyDigit (c : Char) : Bool := (digitValue? 16 c).isSome

/-! ## Integers -/

/-- Whether a text with or without a sign is an integer that fits. -/
def integerFits (base : Nat) (text : List Char) : Bool :=
  match digits? base (sign text).2, (sign text).1 with
  | some n, some '-' => n ≤ Nat.pow 2 127
  | some n, _ => n < Nat.pow 2 128
  | none, _ => false

/-- Whether the integer after the mark of a base fits, if it has the form of one. -/
def marked? (base : Nat) (text : List Char) : Option Bool :=
  if text.all (fun c => c == '_' || (digitValue? base c).isSome) && underscoresFit isAnyDigit text
  then some (integerFits base (withoutUnderscores text))
  else none

/-- Whether a decimal integer fits, if it has the form of one: it does not start with a zero, unless
it is zero. -/
def decimal? (text : List Char) : Option Bool :=
  match (sign text).2 with
  | [] | '0' :: _ :: _ => none
  | _ =>
    if underscoresFit isAnyDigit text then some (integerFits 10 (withoutUnderscores text)) else none

/-! ## Floating point numbers -/

/-- Whether `n` times a power of ten rounds to a finite double: it stays below the middle between
the greatest double and the next power of two. -/
def isFiniteDouble (n : Nat) (exponent : Int) : Bool :=
  let bound := Nat.pow 2 1024 - Nat.pow 2 970
  let size : Int := n.repr.length + exponent
  if n = 0 ∨ size < 300 then true
  else if size > 400 then false
  else if exponent < 0 then n < bound * Nat.pow 10 exponent.natAbs
  else n * Nat.pow 10 exponent.natAbs < bound

/-- A character of the parts of a floating point number. -/
def isPartChar (c : Char) : Bool := c.isDigit || c == '_'

/-- Scans a part of a floating point number: digits, one at least, and underscores. -/
def afterPart (text : List Char) : Option (List Char) :=
  if (text.takeWhile isPartChar).any Char.isDigit then some (text.dropWhile isPartChar) else none

/-- Scans the part in front of the point, which has no zero in front of other digits. -/
def afterWhole (text : List Char) : Option (List Char) :=
  let digits := (text.takeWhile isPartChar).filter Char.isDigit
  if text.head? = some '0' ∧ 1 < digits.length then none else afterPart text

/-- Scans the point and the part behind it, if there is a point. -/
def afterFraction : List Char → Option (List Char)
  | '.' :: rest => afterPart rest
  | rest => some rest

/-- Scans the letter and the exponent behind it, if there is a letter. -/
def afterExponent : List Char → Option (List Char)
  | 'e' :: rest => afterPart (sign rest).2
  | 'E' :: rest => afterPart (sign rest).2
  | rest => some rest

/-- Whether a floating point number fits: a text of its form without sign and underscores. -/
def floatFits (text : List Char) : Bool :=
  let whole := text.takeWhile Char.isDigit
  let fraction := match text.dropWhile Char.isDigit with
    | '.' :: rest => rest.takeWhile Char.isDigit
    | _ => []
  let exponent := (text.dropWhile fun c => c.isDigit || c == '.').drop 1
  let size : Int := (digits? 10 (sign exponent).2).getD 0
  let shift := if (sign exponent).1 = some '-' then -size else size
  isFiniteDouble ((digits? 10 (whole ++ fraction)).getD 0) (shift - fraction.length)

/-- Whether a floating point number fits, if it has the form of one. -/
def float? (text : List Char) : Option Bool := do
  let rest ← afterWhole (sign text).2
  let rest ← afterFraction rest
  let rest ← afterExponent rest
  if rest.isEmpty && underscoresFit Char.isDigit text then
    some (floatFits (withoutUnderscores (sign text).2))
  else none

/-! ## Numbers -/

/-- Whether a number fits, if the text has the form of a number. What follows its first digits says
which form that has to be. -/
def number? (text : List Char) : Option Bool :=
  let (s, body) := sign text
  match body with
  | '0' :: 'x' :: digits => if s.isSome then none else marked? 16 digits
  | '0' :: 'o' :: digits => if s.isSome then none else marked? 8 digits
  | '0' :: 'b' :: digits => if s.isSome then none else marked? 2 digits
  | _ =>
    if body = ['i', 'n', 'f'] ∨ body = ['n', 'a', 'n'] then some true
    else
      let rest := body.dropWhile Char.isDigit
      if rest.contains ' ' then none
      else if rest.any fun c => c == '.' || c == 'e' || c == 'E' then float? text
      else if rest.isEmpty || rest.head? = some '_' then decimal? text
      else none

/-! ## Dates and times -/

/-- A number of exactly so many digits in front of a text, and what follows it. -/
def fixedDigits (count : Nat) (text : List Char) : Option (Nat × List Char) :=
  if (text.take count).length = count then
    (digits? 10 (text.take count)).map fun n => (n, text.drop count)
  else none

/-- The number of days in a month, with the leap years of the calendar. -/
def daysInMonth (year month : Nat) : Nat :=
  if month = 2 then
    if year % 4 = 0 ∧ (year % 100 ≠ 0 ∨ year % 400 = 0) then 29 else 28
  else if month = 4 ∨ month = 6 ∨ month = 9 ∨ month = 11 then 30
  else 31

/-- Scans a date: year, month and day. -/
def afterDate (text : List Char) : Option (List Char) := do
  match ← fixedDigits 4 text with
  | (year, '-' :: rest) =>
    match ← fixedDigits 2 rest with
    | (month, '-' :: rest) =>
      let (day, rest) ← fixedDigits 2 rest
      if 1 ≤ month ∧ month ≤ 12 ∧ 1 ≤ day ∧ day ≤ daysInMonth year month then some rest else none
    | _ => none
  | _ => none

/-- Scans the seconds of a time, if there are any: a second may be a leap second, and a fraction has
one digit at least. -/
def afterSeconds (text : List Char) : Option (List Char) :=
  match text with
  | ':' :: rest => do
    let (second, rest) ← fixedDigits 2 rest
    if second > 60 then none
    else match rest with
      | '.' :: c :: rest => if c.isDigit then some (rest.dropWhile Char.isDigit) else none
      | '.' :: [] => none
      | _ => some rest
  | _ => some text

/-- Scans a time of day: hour and minute, then the seconds. -/
def afterTime (text : List Char) : Option (List Char) := do
  match ← fixedDigits 2 text with
  | (hour, ':' :: rest) =>
    let (minute, rest) ← fixedDigits 2 rest
    if hour ≤ 23 ∧ minute ≤ 59 then afterSeconds rest else none
  | _ => none

/-- Whether a text is nothing, or the offset of a time zone. -/
def isOffset (text : List Char) : Bool :=
  match text with
  | [] => true
  | [z] => z == 'Z' || z == 'z'
  | s :: rest =>
    (s == '+' || s == '-') &&
      (match fixedDigits 2 rest with
        | some (hour, ':' :: rest) =>
          match fixedDigits 2 rest with
          | some (minute, []) => hour ≤ 23 && minute ≤ 59
          | _ => false
        | _ => false)

/-- Whether a text is a date, a time, or a date and a time with or without an offset. -/
def isMoment (text : List Char) : Bool :=
  match afterDate text with
  | some [] => true
  | some (c :: rest) =>
    (c == 'T' || c == 't' || c == ' ') && ((afterTime rest).any isOffset)
  | none => (afterTime text).any (·.isEmpty)

/-! ## Bare values -/

/-- The value that a text without quotes and brackets writes. -/
def bareValue? (text : List Char) : Option Value :=
  if text = "true".toList then some (.boolean true)
  else if text = "false".toList then some (.boolean false)
  else if isMoment text then some .moment
  else (number? text).map .number

end SequenceXmi.Toml
