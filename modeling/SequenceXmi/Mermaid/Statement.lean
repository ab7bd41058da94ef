import SequenceXmi.Diagram
import SequenceXmi.Mermaid.Warning
import SequenceXmi.Text.Scanner
import SequenceXmi.Text.Word

/-! # Statements of diagram text

One line holds one statement. The shape of a line decides first which kind of statement it has to
be, in this order:

1. it starts with the keyword `participant`: a participant;
2. it contains the arrow `->>`: a message;
3. it starts with the keyword `alt` or `loop`: the opening of a fragment;
4. it starts with the keyword `end`: the end of a fragment;
5. it starts with the keyword `Note`: a note;
6. otherwise it has to be the header `sequenceDiagram`.

Then it has to follow the grammar of that kind; no other kind is tried. -/

namespace SequenceXmi.Mermaid

open Text

/-- What one line says. -/
inductive Statement where
  /-- The line that starts a diagram. -/
  | header
  /-- A participant is declared, with or without a name to show. -/
  | participant (aliasName : String) (displayName : Option String)
  /-- A message is sent. -/
  | message (sender receiver text : String)
  /-- A fragment opens. -/
  | opening (operator : Operator) (guard : String)
  /-- A fragment ends. -/
  | closing
  /-- A note at a lifeline. -/
  | note (target text : String)
  deriving DecidableEq, Repr

/-! ## Scanning a line -/

/-- Scans one blank or more. -/
def afterSomeBlanks : List Char → Option (List Char)
  | [] => none
  | c :: text => if isBlank c then some (afterBlanks text) else none

/-- Scans a word, as long as it goes, and gives it with what is left. -/
def scanWord (text : List Char) : Option (String × List Char) :=
  match text.takeWhile isWord with
  | [] => none
  | word => some (String.ofList word, text.dropWhile isWord)

/-- Scans a keyword: a blank or the end of the line follows it, and is not scanned. -/
def afterKeyword (keyword : String) (text : List Char) : Option (List Char) :=
  match afterLiteral keyword.toList text with
  | some [] => some []
  | some (c :: rest) => if isBlank c then some (c :: rest) else none
  | none => none

/-- Whether a line starts with a keyword. -/
def startsWithKeyword (keyword : String) (line : List Char) : Bool :=
  (afterKeyword keyword line).isSome

/-- The rest of a line as text, if there is any. -/
def nonemptyRest (text : List Char) : Option String :=
  if text.isEmpty then none else some (String.ofList text)

/-- Scans a colon with blanks around it, and takes what is left as text. -/
def textAfterColon (text : List Char) : Option String := do
  let rest ← afterLiteral [':'] (afterBlanks text)
  nonemptyRest (afterBlanks rest)

/-! ## Grammar of each kind of statement -/

/-- The arrow of a message. -/
def arrow : List Char := ['-', '>', '>']

/-- Whether the arrow stands anywhere in a text. -/
def hasArrow : List Char → Bool
  | [] => false
  | c :: text => arrow.isPrefixOf (c :: text) || hasArrow text

/-- `as` and a name to show, after the alias of a participant. -/
def displayClause (text : List Char) : Option String := do
  let rest ← afterSomeBlanks text
  let rest ← afterLiteral ['a', 's'] rest
  let name ← afterSomeBlanks rest
  if name.isEmpty then none else some (String.ofList (trim name))

/-- `participant <alias>` or `participant <alias> as <display name>`. -/
def participant? (line : List Char) : Option Statement := do
  let rest ← afterKeyword "participant" line
  let rest ← afterSomeBlanks rest
  let (aliasName, rest) ← scanWord rest
  match displayClause rest with
  | some name => some (.participant aliasName (some name))
  | none => if rest.isEmpty then some (.participant aliasName none) else none

/-- `<sender>->><receiver>: <text>`. -/
def message? (line : List Char) : Option Statement := do
  let (sender, rest) ← scanWord line
  let rest ← afterLiteral arrow (afterBlanks rest)
  let (receiver, rest) ← scanWord (afterBlanks rest)
  let text ← textAfterColon rest
  some (.message sender receiver text)

/-- `<operator> <guard>`, where the guard may be empty. -/
def opening? (operator : Operator) (line : List Char) : Option Statement :=
  (afterKeyword operator.keyword line).map fun rest =>
    .opening operator (String.ofList (trim rest))

/-- Where a note stands: `over`, `left of` or `right of` a lifeline. -/
def afterPlacement (text : List Char) : Option (List Char) :=
  match afterLiteral "over".toList text with
  | some rest => some rest
  | none => do
    let rest ← (afterLiteral "left".toList text).or (afterLiteral "right".toList text)
    afterLiteral "of".toList (← afterSomeBlanks rest)

/-- `Note over <alias>: <text>`, or `left of` or `right of` in place of `over`. -/
def note? (line : List Char) : Option Statement := do
  let rest ← afterKeyword "Note" line
  let rest ← afterSomeBlanks rest
  let rest ← afterPlacement rest
  let rest ← afterSomeBlanks rest
  let (target, rest) ← scanWord rest
  let text ← textAfterColon rest
  some (.note target text)

/-- `sequenceDiagram`, with nothing but blanks after it. -/
def header? (line : List Char) : Option Statement := do
  let rest ← afterKeyword "sequenceDiagram" line
  if (afterBlanks rest).isEmpty then some .header else none

/-! ## Reading a line -/

/-- The statement of a trimmed line that is neither blank nor a comment, or the trouble with it. -/
def Statement.ofLine (line : List Char) : Except Trouble Statement :=
  if startsWithKeyword "participant" line then
    (participant? line).elim (.error .malformedParticipant) .ok
  else if hasArrow line then
    (message? line).elim (.error .malformedMessage) .ok
  else if startsWithKeyword Operator.alt.keyword line then
    (opening? .alt line).elim (.error .unrecognizedLine) .ok
  else if startsWithKeyword Operator.loop.keyword line then
    (opening? .loop line).elim (.error .unrecognizedLine) .ok
  else if startsWithKeyword "end" line then
    .ok .closing
  else if startsWithKeyword "Note" line then
    (note? line).elim (.error .malformedNote) .ok
  else
    (header? line).elim (.error .unrecognizedLine) .ok

end SequenceXmi.Mermaid
