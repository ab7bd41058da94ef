import SequenceXmi.Text.Scanner
import SequenceXmi.Toml.Number
import SequenceXmi.Toml.Quoted

/-! # TOML documents

A document is read line by line: blank lines and comments, headers that open a table, and keys with
their values. A value may go over several lines inside brackets and braces.

Each reader takes the text still to be read and gives what is left. Where a reader calls itself, a
bound on the number of calls that is larger than the text is long makes it end. -/

namespace SequenceXmi.Toml

open Text (afterBlanks isBlank)

/-! ## Between the values -/

/-- Scans white space, line ends and comments; `comment` says that a comment has begun. -/
def afterTrivia (comment : Bool) : List Char → Option (List Char)
  | [] => some []
  | '\n' :: rest => afterTrivia false rest
  | '\r' :: '\n' :: rest => afterTrivia false rest
  | c :: rest =>
    if comment then
      if isTextChar c then afterTrivia true rest else none
    else if isBlank c then afterTrivia false rest
    else if c == '#' then afterTrivia true rest
    else some (c :: rest)

/-- Scans a line end, or the end of the text. -/
def afterLineEnd : List Char → Option (List Char)
  | [] => some []
  | '\n' :: rest => some rest
  | '\r' :: '\n' :: rest => some rest
  | _ => none

/-- Scans what may follow on a line: blanks, a comment, and the line end. -/
def afterRestOfLine (text : List Char) : Option (List Char) :=
  match afterBlanks text with
  | '#' :: rest => afterLineEnd (rest.dropWhile isTextChar)
  | rest => afterLineEnd rest

/-! ## Keys -/

/-- A character of a key without quotes. -/
def isBareKeyChar (c : Char) : Bool := c.isAlphanum || c == '_' || c == '-'

/-- Reads one part of a key. -/
def keyPart? (text : List Char) : Option (String × List Char) :=
  match text.takeWhile isBareKeyChar with
  | [] => lineQuoted? text
  | part => some (String.ofList part, text.dropWhile isBareKeyChar)

/-- How deep arrays and inline tables may stand inside each other, and how many parts a key may
have. -/
def maxDepth : Nat := 80

/-- Reads a key of at most so many parts, with dots between them, and gives the last part apart. -/
def keyParts? : Nat → List Char → Option ((List String × String) × List Char)
  | 0, _ => none
  | parts + 1, text => do
    let (part, rest) ← keyPart? (afterBlanks text)
    match afterBlanks rest with
    | '.' :: rest =>
      let ((path, last), rest) ← keyParts? parts rest
      return ((part :: path, last), rest)
    | rest => return (([], part), rest)

/-- Reads a key. -/
def key? (text : List Char) : Option ((List String × String) × List Char) :=
  keyParts? maxDepth text

/-! ## Values -/

/-- The characters that end a value without quotes and brackets; a blank may be one more. -/
def delimiters : List Char := ['\n', '\r', ',', '=', '#', '[', ']', '\x7b', '\x7d']

/-- A character of a value without quotes and brackets. -/
def isBareValueChar (c : Char) : Bool := !(isBlank c || delimiters.contains c)

/-- The text of a value without quotes and brackets, as long as it goes, and what follows it. Blanks
may stand in it, as between a date and a time, but not at its end and not in front of a quote. -/
def bareText : List Char → List Char × List Char
  | [] => ([], [])
  | c :: rest =>
    if isBareValueChar c || isBlank c then
      let (text, left) := bareText rest
      let isInside := text.head?.any fun d => d != '"' && d != '\''
      if isBareValueChar c || isInside then (c :: text, left) else ([], c :: rest)
    else ([], c :: rest)

/-- Reads a value without quotes and brackets. -/
def bare? (text : List Char) : Option (Value × List Char) :=
  let (text, rest) := bareText text
  (bareValue? text).map (·, rest)

/-- What a scanner finds, or else the text is malformed. -/
def wellFormed {α : Type} : Option α → Except Fault α
  | some a => .ok a
  | none => .error .malformed

mutual

/-- Reads a value. -/
def value (bound depth : Nat) (text : List Char) : Except Fault (Value × List Char) :=
  match bound, text with
  | 0, _ => throw .malformed
  | bound + 1, '[' :: rest =>
    match depth with
    | 0 => throw .tooDeep
    | depth + 1 => do
      let (items, rest) ← arrayItems bound depth rest
      return (.array items, rest)
  | bound + 1, '\x7b' :: rest =>
    match depth with
    | 0 => throw .tooDeep
    | depth + 1 => do
      let (entries, rest) ← inlineEntries bound depth [] rest
      return (.table .inline entries, rest)
  | _ + 1, c :: rest =>
    if c == '"' || c == '\'' then do
      let (text, rest) ← wellFormed (quoted? (c :: rest))
      return (.string text, rest)
    else wellFormed (bare? (c :: rest))
  | _ + 1, [] => throw .malformed

/-- Reads the items of an array and its closing bracket. -/
def arrayItems (bound depth : Nat) (text : List Char) : Except Fault (List Value × List Char) :=
  match bound with
  | 0 => throw .malformed
  | bound + 1 => do
    match ← wellFormed (afterTrivia false text) with
    | ']' :: rest => return ([], rest)
    | text =>
      let (item, rest) ← value bound depth text
      match ← wellFormed (afterTrivia false rest) with
      | ']' :: rest => return ([item], rest)
      | ',' :: rest => do
        let (items, rest) ← arrayItems bound depth rest
        return (item :: items, rest)
      | _ => throw .malformed

/-- Reads the keys and values of an inline table and its closing brace. -/
def inlineEntries (bound depth : Nat) (entries : Entries) (text : List Char) :
    Except Fault (Entries × List Char) :=
  match bound with
  | 0 => throw .malformed
  | bound + 1 => do
    match ← wellFormed (afterTrivia false text) with
    | '\x7d' :: rest => return (entries, rest)
    | text =>
      let ((path, key), rest) ← wellFormed (key? text)
      let rest ← match ← wellFormed (afterTrivia false rest) with
        | '=' :: rest => wellFormed (afterTrivia false rest)
        | _ => throw .malformed
      let (item, rest) ← value bound depth rest
      let entries ← entries.assign path key item .inline
      match ← wellFormed (afterTrivia false rest) with
      | '\x7d' :: rest => return (entries, rest)
      | ',' :: rest => inlineEntries bound depth entries rest
      | _ => throw .malformed

end

/-! ## Lines -/

/-- Reads a header: its key, whether it stands in double brackets, and the rest of its line. -/
def header? (text : List Char) : Option (((List String × String) × Bool) × List Char) := do
  match text with
  | '[' :: '[' :: rest =>
    let (key, rest) ← key? rest
    match rest with
    | ']' :: ']' :: rest => return ((key, true), ← afterRestOfLine rest)
    | _ => none
  | '[' :: rest =>
    let (key, rest) ← key? rest
    match rest with
    | ']' :: rest => return ((key, false), ← afterRestOfLine rest)
    | _ => none
  | _ => none

/-- Reads a key with its value, and the rest of the line. -/
def keyValue (text : List Char) :
    Except Fault (((List String × String) × Value) × List Char) := do
  let (key, rest) ← wellFormed (key? text)
  match rest with
  | '=' :: rest =>
    let (item, rest) ← value (2 * rest.length + 2) maxDepth (afterBlanks rest)
    return ((key, item), ← wellFormed (afterRestOfLine rest))
  | _ => throw .malformed

/-- Reads the lines of a document. `header` is the path of the header above, whose table takes the
keys that follow. -/
def readLines : Nat → List String → Entries → List Char → Except Fault Entries
  | 0, _, _, _ => throw .malformed
  | bound + 1, header, root, text => do
    match ← wellFormed (afterTrivia false text) with
    | [] => return root
    | '[' :: rest =>
      let (((path, key), many), rest) ← wellFormed (header? ('[' :: rest))
      let root ← if many then root.openNext path key else root.openTable path key
      readLines bound (path ++ [key]) root rest
    | text =>
      let (((path, key), item), rest) ← keyValue text
      let root ← Entries.change false (Entries.assign path key item) header .header root
      readLines bound header root rest

/-- Reads a document. A byte order mark in front does not belong to it. -/
def read (source : String) : Except Fault Entries :=
  let text := match source.toList with
    | '\uFEFF' :: rest => rest
    | text => text
  readLines (text.length + 1) [] [] text

end SequenceXmi.Toml
