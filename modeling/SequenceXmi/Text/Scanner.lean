import SequenceXmi.Text.Characters

/-! # Scanners

A scanner takes the text still to be read and gives what is left of it, or nothing if the text does
not start as it wants. Those here belong to no format: a literal, a run of blanks or of spaces, and
the items that another scanner finds one after another. -/

namespace SequenceXmi.Text

/-! ## Literals -/

/-- Scans the given characters. -/
def afterLiteral : List Char → List Char → Option (List Char)
  | [], text => some text
  | _ :: _, [] => none
  | l :: literal, c :: text => if l = c then afterLiteral literal text else none

theorem afterLiteral_eq_some {literal text rest : List Char} :
    afterLiteral literal text = some rest ↔ text = literal ++ rest := by
  induction literal generalizing text with
  | nil => simp [afterLiteral]
  | cons l literal ih =>
    cases text with
    | nil => simp [afterLiteral]
    | cons c text =>
      by_cases h : l = c
      · subst h; simp [afterLiteral, ih]
      · simp [afterLiteral, h, Ne.symm h]

/-! ## Runs of a class -/

/-- A space of a document format: a blank or a character of a line end. -/
def isSpace (c : Char) : Bool := isBlank c || isLineEnd c

theorem isSpace_iff {c : Char} : isSpace c ↔ c = ' ' ∨ c = '\t' ∨ c = '\n' ∨ c = '\r' := by
  simp [isSpace, isBlank, isLineEnd, or_assoc]

/-- Scans any number of blanks. -/
def afterBlanks (text : List Char) : List Char := text.dropWhile isBlank

/-- Scans any number of spaces. -/
def afterSpaces (text : List Char) : List Char := text.dropWhile isSpace

/-! ## One item after another -/

/-- Scans items one after another, as long as the scanner finds one that takes something. -/
def scanAll {α : Type} (scan : List Char → Option (α × List Char)) (text : List Char) :
    List α × List Char :=
  match scan text with
  | none => ([], text)
  | some (item, rest) =>
    if rest.length < text.length then
      let (items, rest) := scanAll scan rest
      (item :: items, rest)
    else ([], text)
termination_by text.length

section

variable {α : Type} {scan : List Char → Option (α × List Char)} {text rest : List Char} {item : α}

theorem scanAll_of_some (h : scan text = some (item, rest)) (hrest : rest.length < text.length) :
    scanAll scan text = (item :: (scanAll scan rest).1, (scanAll scan rest).2) := by
  rw [scanAll, h]
  simp [hrest]

theorem scanAll_of_none (h : scan text = none) : scanAll scan text = ([], text) := by
  rw [scanAll, h]

end

end SequenceXmi.Text
