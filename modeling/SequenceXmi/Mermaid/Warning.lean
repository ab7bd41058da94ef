import SequenceXmi.Text.Span

/-! # Warnings about diagram text

Reading diagram text never fails. What it cannot use, or has to set right, it reports as a
`Warning`: a code for the kind of trouble, a message, marks on the source, and advice. -/

namespace SequenceXmi.Mermaid

open Text (Span)

/-! ## Kinds of trouble -/

/-- What a warning is about. -/
inductive Trouble where
  /-- The line belongs to no kind of statement. -/
  | unrecognizedLine
  /-- The line starts like a participant and is none. -/
  | malformedParticipant
  /-- The line has an arrow and is no message. -/
  | malformedMessage
  /-- The line starts like a note and is none. -/
  | malformedNote
  /-- A fragment is closed where none is open. -/
  | unmatchedEnd
  /-- A fragment is still open at the end of the text. -/
  | unclosedFragment
  /-- A fragment is closed because another one opens. -/
  | implicitlyClosed
  deriving DecidableEq, Repr

namespace Trouble

/-- Every kind of trouble, by ascending code. -/
def all : List Trouble :=
  [.unrecognizedLine, .malformedParticipant, .malformedMessage, .malformedNote, .unmatchedEnd,
   .unclosedFragment, .implicitlyClosed]

/-- The code under which the trouble is reported. -/
def code : Trouble → String
  | .unrecognizedLine => "E100"
  | .malformedParticipant => "E101"
  | .malformedMessage => "E102"
  | .malformedNote => "E103"
  | .unmatchedEnd => "E104"
  | .unclosedFragment => "E105"
  | .implicitlyClosed => "E106"

/-- The trouble reported under a code. -/
def ofCode? (code : String) : Option Trouble := all.find? (·.code == code)

theorem ofCode?_code (t : Trouble) : ofCode? t.code = some t := by cases t <;> decide

/-- The trouble in a few words. -/
def description : Trouble → String
  | .unrecognizedLine => "unrecognized line"
  | .malformedParticipant => "malformed participant declaration"
  | .malformedMessage => "malformed message"
  | .malformedNote => "malformed note"
  | .unmatchedEnd => "unmatched end"
  | .unclosedFragment => "unclosed fragment"
  | .implicitlyClosed => "implicitly closed fragment"

/-- Whether the line in trouble was left out of the diagram. -/
def isSkippedLine : Trouble → Bool
  | .unrecognizedLine | .malformedParticipant | .malformedMessage | .malformedNote => true
  | .unmatchedEnd | .unclosedFragment | .implicitlyClosed => false

/-- What to do about a skipped line: how lines of its kind are written. -/
def skippedAdvice : Trouble → String
  | .malformedParticipant =>
    "participants are declared as `participant <alias>` or `participant <alias> as <display name>`"
  | .malformedMessage => "messages are written `<sender>->><receiver>: <text>`"
  | .malformedNote => "notes are written `Note over <alias>: <text>`"
  | _ =>
    "supported lines are `participant`, `<sender>->><receiver>: <text>`, `alt`, `loop`, `end` " ++
      "and `Note over`"

end Trouble

/-! ## Warnings -/

/-- A remark on a place in the source. -/
structure Mark where
  span : Span
  message : String
  /-- The place that the warning is about, as against one that explains it. -/
  isPrimary : Bool
  deriving DecidableEq, Repr

/-- A warning about diagram text. -/
structure Warning where
  trouble : Option Trouble
  message : String
  marks : List Mark
  advice : Option String
  deriving DecidableEq, Repr

namespace Warning

/-! ### Making a warning -/

/-- A warning that says only its message. -/
def ofMessage (message : String) : Warning := ⟨none, message, [], none⟩

/-- The warning as one about the given trouble. -/
def withTrouble (w : Warning) (t : Trouble) : Warning := { w with trouble := some t }

/-- The warning with one more mark on the place it is about. -/
def withMark (w : Warning) (span : Span) (message : String) : Warning :=
  { w with marks := w.marks ++ [⟨span, message, true⟩] }

/-- The warning with one more mark on a place that explains it. -/
def withSecondaryMark (w : Warning) (span : Span) (message : String) : Warning :=
  { w with marks := w.marks ++ [⟨span, message, false⟩] }

/-- The warning with this advice in place of any other. -/
def withAdvice (w : Warning) (advice : String) : Warning := { w with advice := some advice }

/-! ### Reading a warning -/

/-- The first place that the warning is about. -/
def primarySpan? (w : Warning) : Option Span := (w.marks.find? (·.isPrimary)).map (·.span)

/-- Whether the warning reports a line left out of the diagram. -/
def isSkippedLine (w : Warning) : Bool := w.trouble.any (·.isSkippedLine)

/-- The warning on one line, its code in brackets. -/
def headline (w : Warning) : String :=
  match w.trouble with
  | some t => "warning[" ++ t.code ++ "]: " ++ w.message
  | none => "warning: " ++ w.message

end Warning

/-! ## Annotations

A printer of source excerpts wants offset and length of each place, and tells no marks from an
empty list of them. -/

/-- A mark as an excerpt printer takes it. -/
structure Annotation where
  offset : Nat
  length : Nat
  label : String
  isPrimary : Bool
  deriving DecidableEq, Repr

/-- The annotation of a mark covers the mark's span. -/
def Annotation.ofMark (m : Mark) : Annotation :=
  ⟨m.span.start, m.span.length, m.message, m.isPrimary⟩

/-- The annotations of a warning, in the order of its marks; none if it has no marks. -/
def Warning.annotations? (w : Warning) : Option (List Annotation) :=
  if w.marks.isEmpty then none else some (w.marks.map Annotation.ofMark)

end SequenceXmi.Mermaid
