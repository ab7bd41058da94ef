import Mathlib.Data.List.Forall2
import SequenceXmi.Proofs.Text.Trimming
import SequenceXmi.Text.Line

/-! # Lines of joined texts

Two texts are joined at the beginning of a line if the first one ends with a line feed. The lines of
the first text are then lines of the whole, and the lines of the second one follow. Each of them
says what it says by itself, and stands further on by the bytes of the first text
(`lines_append`).

A line feed can be put at the end of any text first: it adds a blank line at most
(`lines_append_newline`). -/

namespace SequenceXmi.Text

/-! ## Pieces -/

/-- What follows this text begins a line. -/
def EndsLine (text : List Char) : Prop := text = [] ∨ text.getLast? = some '\n'

instance (text : List Char) : Decidable (EndsLine text) :=
  inferInstanceAs (Decidable (text = [] ∨ text.getLast? = some '\n'))

/-- A character goes to the first piece, whatever pieces come later. -/
theorem consPiece_append (c : Char) {ps : List (List Char)} (h : ps ≠ []) (qs : List (List Char)) :
    consPiece c (ps ++ qs) = consPiece c ps ++ qs := by
  obtain ⟨piece, rest, rfl⟩ := List.exists_cons_of_ne_nil h
  unfold consPiece
  by_cases hc : c = '\n'
  · rw [if_pos hc, if_pos hc]
    rfl
  · rw [if_neg hc, if_neg hc]
    rfl

theorem pieces_ne_nil {text : List Char} (h : text ≠ []) : pieces text ≠ [] := by
  intro hnil
  apply h
  rw [← flatten_pieces text, hnil]
  rfl

/-- No piece reaches over the place where texts are joined. -/
theorem pieces_append {front : List Char} (h : EndsLine front) (back : List Char) :
    pieces (front ++ back) = pieces front ++ pieces back := by
  induction front with
  | nil => rfl
  | cons c front ih =>
    show consPiece c (pieces (front ++ back)) = consPiece c (pieces front) ++ pieces back
    by_cases hfront : front = []
    · -- The last character of the front is a line feed and a piece of its own.
      subst hfront
      obtain rfl : c = '\n' := by simpa [EndsLine] using h
      rfl
    · have hends : EndsLine front := by
        right
        rcases h with hnil | hlast
        · cases hnil
        · rwa [List.getLast?_cons_of_ne_nil hfront] at hlast
      rw [ih hends, consPiece_append c (pieces_ne_nil hfront)]

/-! ## Lines -/

/-- The span that lies `n` bytes further on. -/
def Span.shift (n : Nat) (s : Span) : Span :=
  ⟨n + s.start, n + s.stop, Nat.add_le_add_left s.start_le_stop n⟩

namespace Line

/-- A line that says the same in another place. -/
structure MovedBy (f : Span → Span) (line moved : Line) : Prop where
  text : moved.text = line.text
  span : moved.span = f line.span

theorem movedBy_ofPiece (n number number' offset : Nat) (piece : List Char) :
    MovedBy (Span.shift n) (ofPiece number offset piece) (ofPiece number' (n + offset) piece) := by
  refine ⟨rfl, ?_⟩
  simp only [ofPiece, Span.ofLength, Span.shift, Nat.add_assoc]

/-- The offset of the first piece moves all lines by the same number of bytes. -/
theorem movedBy_ofPieces (n number number' offset : Nat) (ps : List (List Char)) :
    List.Forall₂ (MovedBy (Span.shift n)) (ofPieces number offset ps)
      (ofPieces number' (n + offset) ps) := by
  induction ps generalizing number number' offset with
  | nil => exact .nil
  | cons piece ps ih =>
    refine .cons (movedBy_ofPiece n number number' offset piece) ?_
    rw [Nat.add_assoc]
    exact ih (number + 1) (number' + 1) (offset + byteLength piece)

theorem ofPieces_append (number offset : Nat) (ps qs : List (List Char)) :
    ofPieces number offset (ps ++ qs) =
      ofPieces number offset ps ++
        ofPieces (number + ps.length) (offset + byteLength ps.flatten) qs := by
  induction ps generalizing number offset with
  | nil => rfl
  | cons piece ps ih =>
    have hnumber : number + (ps.length + 1) = number + 1 + ps.length := by omega
    show ofPiece number offset piece :: ofPieces _ _ (ps ++ qs) = _
    rw [ih, List.length_cons, List.flatten_cons, byteLength_append, hnumber, ← Nat.add_assoc]
    rfl

end Line

/-- The lines of the second text follow those of the first, moved by its bytes. -/
theorem lines_append {s : String} (h : EndsLine s.toList) (t : String) :
    ∃ after, lines (s ++ t) = lines s ++ after ∧
      List.Forall₂ (Line.MovedBy (Span.shift (byteLength s.toList))) (lines t) after := by
  refine ⟨Line.ofPieces (1 + (pieces s.toList).length) (byteLength s.toList) (pieces t.toList),
    ?_, Line.movedBy_ofPieces (byteLength s.toList) 1 _ 0 (pieces t.toList)⟩
  unfold lines
  rw [String.toList_append, pieces_append h, Line.ofPieces_append, flatten_pieces, Nat.zero_add]

/-! ## A line feed at the end -/

/-- In a text that does not end its last line, a line feed ends it. -/
theorem pieces_concat_newline {text : List Char} (h : ¬ EndsLine text) :
    ∃ front last, pieces text = front ++ [last] ∧
      pieces (text ++ ['\n']) = front ++ [last ++ ['\n']] := by
  induction text with
  | nil => exact absurd (.inl rfl) h
  | cons c text ih =>
    show ∃ front last, consPiece c (pieces text) = front ++ [last] ∧
      consPiece c (pieces (text ++ ['\n'])) = front ++ [last ++ ['\n']]
    by_cases htext : text = []
    · -- The only character stays in front of the line feed.
      subst htext
      have hc : c ≠ '\n' := by
        rintro rfl
        exact h (.inr rfl)
      refine ⟨[], [c], ?_, ?_⟩ <;> simp [pieces, consPiece, hc]
    · have hends : ¬ EndsLine text := by
        rintro (hnil | hlast)
        · exact htext hnil
        · exact h (.inr (by rwa [List.getLast?_cons_of_ne_nil htext]))
      obtain ⟨front, last, hbefore, hafter⟩ := ih hends
      rw [hbefore, hafter]
      cases front with
      | cons piece front =>
        refine ⟨consPiece c (piece :: front), last, ?_, ?_⟩ <;>
          exact consPiece_append c (List.cons_ne_nil _ _) _
      | nil =>
        by_cases hc : c = '\n'
        · exact ⟨[[c]], last, by simp [consPiece, hc], by simp [consPiece, hc]⟩
        · exact ⟨[], c :: last, by simp [consPiece, hc], by simp [consPiece, hc]⟩

/-- What a line says, and where, does not depend on how it ends. -/
theorem Line.ofPiece_append_ending (number offset : Nat) (piece : List Char) {ending : List Char}
    (h : ∀ c ∈ ending, isLineEnd c) :
    ofPiece number offset (piece ++ ending) = ofPiece number offset piece := by
  unfold ofPiece
  rw [dropEndWhile_append_of_all h]

theorem Line.ofPiece_append_newline (number offset : Nat) (piece : List Char) :
    ofPiece number offset (piece ++ ['\n']) = ofPiece number offset piece :=
  ofPiece_append_ending number offset piece (List.all_eq_true.mp rfl)

/-- A line feed at the end of a text adds no line, or a blank one. -/
theorem lines_append_newline (s : String) :
    ∃ blank, lines (s ++ "\n") = lines s ++ blank ∧ ∀ line ∈ blank, line.text = [] := by
  by_cases hends : EndsLine s.toList
  · obtain ⟨after, hlines, hmoved⟩ := lines_append hends "\n"
    refine ⟨after, hlines, ?_⟩
    intro line hline
    -- The one line of the line feed alone.
    cases hmoved with
    | cons hfirst hnone =>
      cases hnone with
      | nil =>
        obtain rfl := List.mem_singleton.mp hline
        exact hfirst.text
  · obtain ⟨front, last, hbefore, hafter⟩ := pieces_concat_newline hends
    have hnewline : (s ++ "\n").toList = s.toList ++ ['\n'] := String.toList_append
    refine ⟨[], ?_, by simp⟩
    unfold lines
    rw [hnewline, hbefore, hafter, Line.ofPieces_append, Line.ofPieces_append, List.append_nil]
    simp only [Line.ofPieces, Line.ofPiece_append_newline]

end SequenceXmi.Text
