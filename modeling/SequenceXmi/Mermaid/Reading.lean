import SequenceXmi.Text.Line
import SequenceXmi.Mermaid.Statement

/-! # Reading diagram text

The statements of a text build the diagram one after another. On the way the reader remembers which
fragments are open: messages and notes go to the innermost open fragment, or to the top level.

With flat nesting at most one fragment is open, since a new one closes it; with stacked nesting
fragments open inside each other. A fragment is listed where it opens in either case. -/

namespace SequenceXmi.Mermaid

open Text

/-! ## Nesting -/

/-- What opening a fragment does to the fragment that is open. -/
inductive Nesting where
  /-- It closes it. -/
  | flat
  /-- It leaves it open around the new one. -/
  | stacked
  deriving DecidableEq, Repr, Inhabited

/-- The name of a way of nesting. -/
def Nesting.name : Nesting → String
  | .flat => "flat"
  | .stacked => "stacked"

/-- Why a word gives no way of nesting. -/
inductive NestingFault where
  /-- It is the name of none. -/
  | unsupported
  deriving DecidableEq, Repr

/-- The fault in words. -/
def NestingFault.text : NestingFault → String
  | .unsupported => "Unsupported nesting mode"

/-- The way of nesting that a name stands for. -/
def Nesting.ofName : String → Except NestingFault Nesting
  | "flat" => .ok .flat
  | "stacked" => .ok .stacked
  | _ => .error .unsupported

/-- A word gives the way of nesting that it is the name of; any other word is refused. -/
theorem Nesting.ofName_cases (name : String) :
    (∃ n : Nesting, name = n.name ∧ ofName name = .ok n) ∨
      (∀ n : Nesting, name ≠ n.name) ∧ ofName name = .error .unsupported := by
  unfold ofName
  split
  · exact .inl ⟨.flat, rfl, rfl⟩
  · exact .inl ⟨.stacked, rfl, rfl⟩
  · next hflat hstacked =>
    refine .inr ⟨?_, rfl⟩
    intro n
    cases n with
    | flat => exact hflat
    | stacked => exact hstacked

/-- The way of nesting that a name stands for, if there is one. -/
def Nesting.ofName? (name : String) : Option Nesting := (ofName name).toOption

/-! ## State -/

/-- An open fragment: its place in the list of fragments, and the line that opened it. -/
structure OpenFragment where
  index : Nat
  span : Span
  deriving DecidableEq, Repr

/-- What has been read so far. -/
structure Progress where
  lifelines : List Lifeline
  topLevel : List Message
  fragments : List Fragment
  /-- The open fragments, innermost first. -/
  opened : List OpenFragment
  warnings : List Warning
  deriving DecidableEq, Repr

/-- A diagram read from a text, with the warnings about the text. -/
structure Reading where
  diagram : Diagram
  warnings : List Warning
  deriving DecidableEq, Repr

/-- The warnings about lines that were left out. -/
def Reading.skippedLines (r : Reading) : List Warning := r.warnings.filter (·.isSkippedLine)

/-! ## Warnings of the reader -/

/-- Text in quotes, as messages show it. -/
def quoted (text : String) : String := "`" ++ text ++ "`"

namespace Warning

/-- A line is left out. -/
def skippedLine (t : Trouble) (line : Line) : Warning :=
  ofMessage (t.description ++ " " ++ quoted (String.ofList line.text))
    |>.withTrouble t
    |>.withMark line.span "skipped"
    |>.withAdvice t.skippedAdvice

/-- A fragment closes the one before it. -/
def implicitlyClosed (operator : Operator) (span previous : Span) : Warning :=
  ofMessage (quoted operator.keyword ++ " opened while another fragment is still open")
    |>.withTrouble .implicitlyClosed
    |>.withMark span "this fragment closes the previous one"
    |>.withSecondaryMark previous "previous fragment opened here"
    |>.withAdvice "add `end` before opening a new fragment"

/-- An end without a fragment. -/
def unmatchedEnd (span : Span) : Warning :=
  ofMessage "unmatched `end`"
    |>.withTrouble .unmatchedEnd
    |>.withMark span "no fragment is open"
    |>.withAdvice "remove this line or open a fragment with `alt` or `loop`"

/-- A fragment without an end. -/
def unclosedFragment (operator : Operator) (span : Span) : Warning :=
  ofMessage (quoted operator.keyword ++ " fragment is never closed")
    |>.withTrouble .unclosedFragment
    |>.withMark span "opened here"
    |>.withAdvice "add `end` after the last message of the fragment"

end Warning

/-! ## Steps -/

namespace Progress

/-- Nothing has been read. -/
def start : Progress := ⟨[], [], [], [], []⟩

/-- One more warning. -/
def warn (p : Progress) (w : Warning) : Progress := { p with warnings := p.warnings ++ [w] }

/-- A lifeline is declared. -/
def declare (p : Progress) (l : Lifeline) : Progress := { p with lifelines := p.lifelines ++ [l] }

/-- A message goes to the innermost open fragment, or to the top level. -/
def send (p : Progress) (m : Message) : Progress :=
  match p.opened with
  | [] => { p with topLevel := p.topLevel ++ [m] }
  | o :: _ => { p with fragments := p.fragments.modify o.index (·.push m) }

/-- A fragment is added at the end of the list and becomes the innermost open one. -/
def push (p : Progress) (operator : Operator) (guard : String) (span : Span) : Progress :=
  { p with
    fragments := p.fragments ++ [.empty operator guard]
    opened := ⟨p.fragments.length, span⟩ :: p.opened }

/-- A fragment opens; with flat nesting it first closes the open one, with a warning. -/
def openFragment (nesting : Nesting) (p : Progress) (operator : Operator) (guard : String)
    (span : Span) : Progress :=
  match nesting, p.opened with
  | .flat, previous :: outer =>
    ({ p with opened := outer }.warn (.implicitlyClosed operator span previous.span)).push
      operator guard span
  | _, _ => p.push operator guard span

/-- The innermost open fragment ends; it is a fault if there is none. -/
def closeFragment (p : Progress) (span : Span) : Progress :=
  match p.opened with
  | [] => p.warn (.unmatchedEnd span)
  | _ :: outer => { p with opened := outer }

/-- What a statement at the given place does. -/
def apply (nesting : Nesting) (p : Progress) (span : Span) : Statement → Progress
  | .header => p
  | .participant aliasName displayName => p.declare ⟨aliasName, displayName.getD aliasName⟩
  | .message sender receiver text => p.send (.synchronous sender receiver text)
  | .opening operator guard => p.openFragment nesting operator guard span
  | .closing => p.closeFragment span
  | .note target text => p.send (.note target text)

/-- What a line does. -/
def step (nesting : Nesting) (p : Progress) (line : Line) : Progress :=
  if line.isIgnorable then p
  else match Statement.ofLine line.text with
    | .ok statement => p.apply nesting line.span statement
    | .error t => p.warn (.skippedLine t line)

/-- The warning about a fragment that is still open at the end. -/
def unclosed? (p : Progress) (o : OpenFragment) : Option Warning :=
  p.fragments[o.index]?.map fun f => .unclosedFragment f.operator o.span

/-- The end of the text: open fragments are reported in the order in which they opened. -/
def finish (p : Progress) : Reading :=
  ⟨⟨p.lifelines, p.topLevel, p.fragments⟩, p.warnings ++ p.opened.reverse.filterMap p.unclosed?⟩

end Progress

/-! ## Reading a text -/

/-- Reads diagram text. -/
def read (nesting : Nesting) (source : String) : Reading :=
  ((lines source).foldl (Progress.step nesting) .start).finish

end SequenceXmi.Mermaid
