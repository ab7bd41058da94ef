import SequenceXmi.Json
import SequenceXmi.Text.Digit
import SequenceXmi.Text.Scanner

/-! # Reading JSON text

A reader for JSON text, for values of strings, arrays and objects. It knows nothing of the
writer: white space may stand around every sign and every string, each character may be written as
an escape, long or short, and a character outside the basic plane may be written as a surrogate
pair. What the grammar does not allow is refused, such as a control character in a string, half of a
pair, a comma without a value after it, and anything but white space after the value.

The text is cut into tokens first (`scanToken`), and the tokens are then put together one by one:
`State` says what may come next, and what is still to be ended. -/

namespace SequenceXmi.Json

open Text (afterLiteral afterSpaces digits? scanAll)

/-! ## Strings -/

/-- The escapes of one character, with the characters that they stand for. -/
def shortEscapes : List (Char × Char) :=
  [('"', '"'), ('\\', '\\'), ('/', '/'), ('b', '\x08'), ('f', '\x0c'), ('n', '\n'), ('r', '\r'),
    ('t', '\t')]

/-- Scans four hexadecimal digits and gives their number. -/
def scanUnit (text : List Char) : Option (Nat × List Char) :=
  if text.length < 4 then none
  else (digits? 16 (text.take 4)).map fun unit => (unit, text.drop 4)

/-- The character of a surrogate pair, if the units are one. -/
def pair? (high low : Nat) : Option Char :=
  if 0xD800 ≤ high ∧ high < 0xDC00 ∧ 0xDC00 ≤ low ∧ low < 0xE000 then
    some (Char.ofNat (0x10000 + (high - 0xD800) * 0x400 + (low - 0xDC00)))
  else none

/-- Scans an escape by number, after the letter `u`. A unit that is no character has to be the first
one of a pair. -/
def scanNumbered (text : List Char) : Option (Char × List Char) := do
  let (unit, rest) ← scanUnit text
  if unit.isValidChar then return (Char.ofNat unit, rest)
  else
    let rest ← afterLiteral ['\\', 'u'] rest
    let (low, rest) ← scanUnit rest
    return (← pair? unit low, rest)

/-- Scans a character of a string. A quotation mark ends the string, and control characters are not
allowed in it. -/
def scanChar : List Char → Option (Char × List Char)
  | [] => none
  | '\\' :: 'u' :: rest => scanNumbered rest
  | '\\' :: e :: rest => (shortEscapes.lookup e).map (·, rest)
  | c :: rest => if c = '"' ∨ c = '\\' ∨ c.toNat < 0x20 then none else some (c, rest)

/-- Scans a string, after its first quotation mark. -/
def scanString (text : List Char) : Option (String × List Char) :=
  match scanAll scanChar text with
  | (chars, '"' :: rest) => some (String.ofList chars, rest)
  | _ => none

/-! ## Tokens -/

/-- The signs and strings of a JSON text. -/
inductive Token where
  | arrayStart
  | arrayEnd
  | objectStart
  | objectEnd
  | comma
  | colon
  | str (text : String)
  deriving DecidableEq, Repr

/-- The signs that are tokens. -/
def signs : List (Char × Token) :=
  [('[', .arrayStart), (']', .arrayEnd), ('\x7b', .objectStart), ('\x7d', .objectEnd),
    (',', .comma), (':', .colon)]

/-- Scans a token, with the white space in front of it. -/
def scanToken (text : List Char) : Option (Token × List Char) :=
  match afterSpaces text with
  | [] => none
  | '"' :: rest => (scanString rest).map fun (text, rest) => (.str text, rest)
  | c :: rest => (signs.lookup c).map (·, rest)

/-! ## Values -/

/-- An array or an object that waits for a value. -/
inductive Container where
  /-- An array, with the items before the value. -/
  | arr (items : List Json)
  /-- An object, with the fields before the value, and the key of the value. -/
  | obj (fields : List (String × Json)) (key : String)

/-- What may come next. The containers around it stand on a stack, innermost first. -/
inductive State where
  /-- A value. -/
  | value (stack : List Container)
  /-- The first item of an array, or its end. -/
  | firstItem (stack : List Container)
  /-- The first key of an object, or its end. -/
  | firstKey (stack : List Container)
  /-- A key, after some fields. -/
  | key (fields : List (String × Json)) (stack : List Container)
  /-- The colon after a key. -/
  | colon (fields : List (String × Json)) (key : String) (stack : List Container)
  /-- What follows a value. -/
  | ended (j : Json) (stack : List Container)

/-- The state after the first token of a value. -/
def begin? (stack : List Container) : Token → Option State
  | .str text => some (.ended (.str text) stack)
  | .arrayStart => some (.firstItem stack)
  | .objectStart => some (.firstKey stack)
  | _ => none

/-- The state after one more token, if the grammar allows it. -/
def next? : State → Token → Option State
  | .value stack, t => begin? stack t
  | .firstItem stack, .arrayEnd => some (.ended (.arr []) stack)
  | .firstItem stack, t => begin? (.arr [] :: stack) t
  | .firstKey stack, .objectEnd => some (.ended (.obj []) stack)
  | .firstKey stack, .str key => some (.colon [] key stack)
  | .key fields stack, .str key => some (.colon fields key stack)
  | .colon fields key stack, .colon => some (.value (.obj fields key :: stack))
  | .ended j (.arr items :: stack), .comma => some (.value (.arr (items ++ [j]) :: stack))
  | .ended j (.arr items :: stack), .arrayEnd => some (.ended (.arr (items ++ [j])) stack)
  | .ended j (.obj fields key :: stack), .comma => some (.key (fields ++ [(key, j)]) stack)
  | .ended j (.obj fields key :: stack), .objectEnd =>
    some (.ended (.obj (fields ++ [(key, j)])) stack)
  | _, _ => none

/-- The value that has been read, if nothing is left to be ended. -/
def State.value? : State → Option Json
  | .ended j [] => some j
  | _ => none

/-- Reads a JSON text. -/
def read? (text : String) : Option Json :=
  let (tokens, rest) := scanAll scanToken text.toList
  if (afterSpaces rest).isEmpty then (tokens.foldlM next? (.value [])).bind State.value? else none

end SequenceXmi.Json
