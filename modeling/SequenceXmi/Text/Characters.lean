/-! # Character classes of diagram text

Three classes decide how a line of a diagram is read:

- *blanks* (space and tab) separate the words of one line;
- *white space* (the Unicode property `White_Space`) surrounds lines and names and is trimmed away;
- *word characters* (letters, digits and the underscore of every script) make up participant names.

A class of a Unicode property is a table of code point ranges. -/

namespace SequenceXmi.Text

/-! ## Blanks -/

/-- A blank separates the words of a line: a space or a tab, and nothing else. -/
def isBlank (c : Char) : Bool := c == ' ' || c == '\t'

/-- A character that ends a physical line or belongs to its ending. -/
def isLineEnd (c : Char) : Bool := c == '\n' || c == '\r'

/-! ## Tables of code points -/

/-- A set of code points, as ranges that include both ends. -/
abbrev CodeRanges := List (Nat × Nat)

/-- Membership of a character in a table of ranges. -/
def CodeRanges.has (ranges : CodeRanges) (c : Char) : Bool :=
  ranges.any fun (first, last) => first ≤ c.toNat && c.toNat ≤ last

theorem CodeRanges.has_iff {ranges : CodeRanges} {c : Char} :
    ranges.has c ↔ ∃ r ∈ ranges, r.1 ≤ c.toNat ∧ c.toNat ≤ r.2 := by
  simp [has]

/-! ## White space -/

/-- The code points of the Unicode property `White_Space`. -/
def whiteSpace : CodeRanges :=
  [(0x09, 0x0D), (0x20, 0x20), (0x85, 0x85), (0xA0, 0xA0), (0x1680, 0x1680), (0x2000, 0x200A),
   (0x2028, 0x2029), (0x202F, 0x202F), (0x205F, 0x205F), (0x3000, 0x3000)]

/-- White space surrounds a line or a name without belonging to it. -/
def isWhite (c : Char) : Bool := whiteSpace.has c

theorem isWhite_of_isBlank {c : Char} (h : isBlank c = true) : isWhite c = true := by
  rcases (by simpa [isBlank] using h : c = ' ' ∨ c = '\t') with rfl | rfl <;> decide

theorem isWhite_of_isLineEnd {c : Char} (h : isLineEnd c = true) : isWhite c = true := by
  rcases (by simpa [isLineEnd] using h : c = '\n' ∨ c = '\r') with rfl | rfl <;> decide

/-! ## Trimming -/

/-- The text without the characters of a class at its end. -/
def dropEndWhile (p : Char → Bool) (text : List Char) : List Char :=
  (text.reverse.dropWhile p).reverse

/-- The text without white space in front. -/
def trimStart (text : List Char) : List Char := text.dropWhile isWhite

/-- The text without white space at the end. -/
def trimEnd (text : List Char) : List Char := dropEndWhile isWhite text

/-- The text without white space at either end. -/
def trim (text : List Char) : List Char := trimEnd (trimStart text)

@[simp] theorem dropEndWhile_nil (p : Char → Bool) : dropEndWhile p [] = [] := rfl

@[simp] theorem trim_nil : trim [] = [] := rfl

/-- Only characters of the class are dropped from the end. -/
theorem eq_dropEndWhile_append (p : Char → Bool) (text : List Char) :
    ∃ tail, text = dropEndWhile p text ++ tail ∧ tail.all p = true := by
  refine ⟨(text.reverse.takeWhile p).reverse, ?_, ?_⟩
  · rw [dropEndWhile, ← List.reverse_append, List.takeWhile_append_dropWhile, List.reverse_reverse]
  · rw [List.all_reverse]; exact List.all_takeWhile

/-- A text whose last character is outside the class stays as it is. -/
theorem dropEndWhile_concat {p : Char → Bool} (text : List Char) {c : Char} (h : p c = false) :
    dropEndWhile p (text ++ [c]) = text ++ [c] := by
  simp [dropEndWhile, h]

/-- Trimming takes only white space away. -/
theorem eq_append_trim_append (text : List Char) :
    ∃ front back, text = front ++ trim text ++ back ∧
      front.all isWhite = true ∧ back.all isWhite = true := by
  obtain ⟨back, hback, hall⟩ := eq_dropEndWhile_append isWhite (trimStart text)
  refine ⟨text.takeWhile isWhite, back, ?_, List.all_takeWhile, hall⟩
  rw [List.append_assoc, trim, trimEnd, ← hback, trimStart, List.takeWhile_append_dropWhile]

end SequenceXmi.Text
