import SequenceXmi.Text.Digit

/-! # Quoted text

TOML quotes text in four ways: with double quotes, where a backslash starts an escape, or with
single quotes, where every character stands for itself; and either on one line, or between three
quotes each and over several lines.

A quoted text is read one character at a time by a machine whose `Mode` says what came before. -/

namespace SequenceXmi.Toml

open Text (digitValue?)

/-! ## Characters -/

/-- The characters that may stand in a quoted text or a comment: all but control characters, and of
those the tab. -/
def isTextChar (c : Char) : Bool := c == '\t' || (0x20 ≤ c.toNat && c.toNat != 0x7F)

/-- The character of an escape of one letter. -/
def shortEscape? : Char → Option Char
  | 'b' => some '\x08'
  | 't' => some '\t'
  | 'n' => some '\n'
  | 'f' => some '\x0c'
  | 'r' => some '\r'
  | 'e' => some '\x1b'
  | '"' => some '"'
  | '\\' => some '\\'
  | _ => none

/-- How many hexadecimal digits follow the letter of an escape. -/
def escapeDigits? : Char → Option Nat
  | 'x' => some 2
  | 'u' => some 4
  | 'U' => some 8
  | _ => none

/-- The character with a number, if the number is that of a character. -/
def charOf? (n : Nat) : Option Char := if n.isValidChar then some (Char.ofNat n) else none

/-! ## The machine -/

/-- What came before the next character of a quoted text. -/
inductive Mode where
  /-- Nothing that matters. -/
  | plain
  /-- A backslash. -/
  | escape
  /-- An escape by number: so many digits are to come, and the number so far. -/
  | hex (left value : Nat)
  /-- A backslash and blanks: a line end has to follow. -/
  | lineEnd
  /-- A backslash and a line end: white space is passed over. -/
  | fold
  /-- So many quotes in a row, in a text between three quotes each. -/
  | quotes (count : Nat)
  deriving DecidableEq, Repr

/-- How a text is quoted. -/
structure Quoting where
  /-- The quote itself. -/
  quote : Char
  /-- A backslash starts an escape. -/
  escapes : Bool
  /-- Three quotes stand at each end, and line ends may stand in between. -/
  multiline : Bool
  deriving DecidableEq, Repr

/-- Puts characters in front of the text read from the rest. -/
def prepend (text : List Char) :
    Option (List Char × List Char) → Option (List Char × List Char) :=
  Option.map fun (read, rest) => (text ++ read, rest)

/-- What a character does where nothing came before that matters. A carriage return is allowed
only in front of a line feed. -/
def Quoting.afterPlain (q : Quoting) (c : Char) (next : Option Char) : Option (Mode × List Char) :=
  if q.escapes && c == '\\' then some (.escape, [])
  else if c == '\n' || (c == '\r' && next == some '\n') then
    if q.multiline then some (.plain, [c]) else none
  else if isTextChar c then some (.plain, [c])
  else none

/-- What a character does after a backslash. -/
def Quoting.afterEscape (q : Quoting) (c : Char) (next : Option Char) :
    Option (Mode × List Char) :=
  match shortEscape? c, escapeDigits? c with
  | some d, _ => some (.plain, [d])
  | none, some n => some (.hex n 0, [])
  | none, none =>
    if !q.multiline then none
    else if c == ' ' || c == '\t' || (c == '\r' && next == some '\n') then some (.lineEnd, [])
    else if c == '\n' then some (.fold, [])
    else none

/-- What a character does, and the text it gives; closing quotes apart. -/
def Quoting.after (q : Quoting) (mode : Mode) (c : Char) (next : Option Char) :
    Option (Mode × List Char) :=
  match mode with
  | .plain => q.afterPlain c next
  | .escape => q.afterEscape c next
  | .hex left value =>
    (digitValue? 16 c).bind fun d =>
      let value := 16 * value + d
      if left ≤ 1 then (charOf? value).map fun x => (.plain, [x])
      else some (.hex (left - 1) value, [])
  | .lineEnd =>
    if c == ' ' || c == '\t' || (c == '\r' && next == some '\n') then some (.lineEnd, [])
    else if c == '\n' then some (.fold, [])
    else none
  | .fold =>
    if c == ' ' || c == '\t' || c == '\n' || (c == '\r' && next == some '\n') then some (.fold, [])
    else q.afterPlain c next
  | .quotes count =>
    (q.afterPlain c next).map fun (mode, text) => (mode, List.replicate count q.quote ++ text)

/-- Whether a character is a quote that may close the text. -/
def Quoting.mayClose (q : Quoting) (mode : Mode) (c : Char) : Bool :=
  c == q.quote && (match mode with
    | .plain | .fold | .quotes _ => true
    | _ => false)

/-- How many quotes in a row came before. -/
def Mode.quoteCount : Mode → Nat
  | .quotes count => count
  | _ => 0

/-- Reads a quoted text from after its opening, and gives it with what follows its closing. Of four
or five quotes in a row the last three close a text of several lines. -/
def Quoting.read (q : Quoting) : Mode → List Char → Option (List Char × List Char)
  | .quotes count, [] =>
    if 3 ≤ count then some (List.replicate (count - 3) q.quote, []) else none
  | _, [] => none
  | mode, c :: rest =>
    if q.mayClose mode c then
      if q.multiline then
        if mode.quoteCount = 4 then some ([q.quote, q.quote], rest)
        else q.read (.quotes (mode.quoteCount + 1)) rest
      else some ([], rest)
    else if 3 ≤ mode.quoteCount then
      some (List.replicate (mode.quoteCount - 3) q.quote, c :: rest)
    else
      match q.after mode c rest.head? with
      | some (mode, text) => prepend text (q.read mode rest)
      | none => none

/-! ## Reading quoted text -/

/-- A line end right after three opening quotes does not belong to the text. -/
def afterFirstLineEnd : List Char → List Char
  | '\n' :: rest => rest
  | '\r' :: '\n' :: rest => rest
  | rest => rest

/-- Reads a text quoted on one line, from its opening quote on. -/
def lineQuoted? : List Char → Option (String × List Char)
  | '"' :: rest =>
    ((⟨'"', true, false⟩ : Quoting).read .plain rest).map fun (text, rest) =>
      (String.ofList text, rest)
  | '\'' :: rest =>
    ((⟨'\'', false, false⟩ : Quoting).read .plain rest).map fun (text, rest) =>
      (String.ofList text, rest)
  | _ => none

/-- Reads a quoted text of any kind, from its opening on. -/
def quoted? : List Char → Option (String × List Char)
  | '"' :: '"' :: '"' :: rest =>
    ((⟨'"', true, true⟩ : Quoting).read .plain (afterFirstLineEnd rest)).map fun (text, rest) =>
      (String.ofList text, rest)
  | '\'' :: '\'' :: '\'' :: rest =>
    ((⟨'\'', false, true⟩ : Quoting).read .plain (afterFirstLineEnd rest)).map
      fun (text, rest) => (String.ofList text, rest)
  | text => lineQuoted? text

end SequenceXmi.Toml
