import SequenceXmi.Text.Characters
import SequenceXmi.Text.Span

/-! # Physical lines

A source text is cut after every line feed. Each piece gives one `Line`: its number, its text
without line ending and surrounding white space, and the span of that text in the source. Blank
lines and comments carry no statement. -/

namespace SequenceXmi.Text

/-! ## Cutting a text into pieces -/

/-- Puts a character in front of a text that is already cut: a line feed is the end of a piece of
its own, any other character belongs to the first piece. -/
def consPiece (c : Char) (pieces : List (List Char)) : List (List Char) :=
  if c = '\n' then [c] :: pieces
  else match pieces with
    | [] => [[c]]
    | piece :: rest => (c :: piece) :: rest

/-- The pieces of a text, each but the last ended by its only line feed. -/
def pieces (text : List Char) : List (List Char) := text.foldr consPiece []

theorem flatten_consPiece (c : Char) (ps : List (List Char)) :
    (consPiece c ps).flatten = c :: ps.flatten := by
  unfold consPiece
  split
  · simp
  · cases ps <;> simp

/-- Cutting loses nothing: the pieces join to the text. -/
theorem flatten_pieces (text : List Char) : (pieces text).flatten = text := by
  induction text with
  | nil => rfl
  | cons c text ih =>
    change (consPiece c (pieces text)).flatten = c :: text
    rw [flatten_consPiece, ih]

/-! ## Lines -/

/-- A physical line of a source. -/
structure Line where
  /-- Number of the line, from 1. -/
  number : Nat
  /-- What the line says, without white space around it. -/
  text : List Char
  /-- Where `text` stands in the source. -/
  span : Span
  deriving DecidableEq, Repr

namespace Line

/-- The line of a piece that starts at byte `offset` of the source. -/
def ofPiece (number offset : Nat) (piece : List Char) : Line :=
  let content := dropEndWhile isLineEnd piece
  let start := offset + byteLength (content.takeWhile isWhite)
  let text := trim content
  ⟨number, text, .ofLength start (byteLength text)⟩

/-- The lines of consecutive pieces, the first of which has the given number and offset. -/
def ofPieces : Nat → Nat → List (List Char) → List Line
  | _, _, [] => []
  | number, offset, piece :: rest =>
    ofPiece number offset piece :: ofPieces (number + 1) (offset + byteLength piece) rest

/-- A blank line or a comment (`%%`) carries no statement. -/
def isIgnorable (line : Line) : Bool := line.text.isEmpty || ['%', '%'].isPrefixOf line.text

end Line

/-- The physical lines of a source text, in order. -/
def lines (source : String) : List Line := Line.ofPieces 1 0 (pieces source.toList)

end SequenceXmi.Text
