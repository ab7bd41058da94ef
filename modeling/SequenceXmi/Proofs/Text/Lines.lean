import SequenceXmi.Text.Line
import SequenceXmi.Proofs.Text.Trimming

/-! # Lines of a written text

A text that is written line by line, each line ended by a line feed, is cut into exactly these
lines. What a line says is what was written, without white space around it. -/

namespace SequenceXmi.Text

/-! ## Writing lines -/

/-- The text of some lines, each ended by a line feed. -/
def written (ls : List String) : String := String.join (ls.map (· ++ "\n"))

theorem toList_written_cons (l : String) (ls : List String) :
    (written (l :: ls)).toList = l.toList ++ '\n' :: (written ls).toList := by
  unfold written
  rw [List.map_cons, String.toList_join, String.toList_join, List.flatMap_cons]
  simp

/-- A line that is put in front of a text becomes its first piece. -/
theorem pieces_line_append {l : List Char} (h : '\n' ∉ l) (text : List Char) :
    pieces (l ++ '\n' :: text) = (l ++ ['\n']) :: pieces text := by
  induction l with
  | nil => rfl
  | cons c l ih =>
    obtain ⟨hc, hl⟩ : '\n' ≠ c ∧ '\n' ∉ l := by simpa using h
    show consPiece c (pieces (l ++ '\n' :: text)) = _
    rw [ih hl, consPiece, if_neg (Ne.symm hc)]
    rfl

theorem pieces_written {ls : List String} (h : ∀ l ∈ ls, '\n' ∉ l.toList) :
    pieces (written ls).toList = ls.map fun l => l.toList ++ ['\n'] := by
  induction ls with
  | nil => rfl
  | cons l ls ih =>
    have hl := h l List.mem_cons_self
    have hls := ih fun x hx => h x (List.mem_cons_of_mem l hx)
    rw [toList_written_cons, pieces_line_append hl, hls, List.map_cons]

/-! ## Reading them -/

/-- The text of a line does not depend on where it stands. -/
theorem map_text_ofPieces (number offset : Nat) (ps : List (List Char)) :
    (Line.ofPieces number offset ps).map (·.text) = ps.map trim := by
  induction ps generalizing number offset with
  | nil => rfl
  | cons piece ps ih =>
    show trim (dropEndWhile isLineEnd piece) :: (Line.ofPieces _ _ ps).map (·.text) = _
    rw [ih, trim_dropEndWhile_isLineEnd, List.map_cons]

/-- A line feed at the end is trimmed away. -/
theorem trim_append_newline (text : List Char) : trim (text ++ ['\n']) = trim text := by
  have hend : ∀ c ∈ ['\n'], isWhite c := by
    intro c hc
    obtain rfl := List.mem_singleton.mp hc
    decide
  exact trim_append_white hend

/-- The lines of a written text say what was written. -/
theorem map_text_lines_written {ls : List String} (h : ∀ l ∈ ls, '\n' ∉ l.toList) :
    (lines (written ls)).map (·.text) = ls.map fun l => trim l.toList := by
  unfold lines
  rw [map_text_ofPieces, pieces_written h, List.map_map]
  apply List.map_congr_left
  intro l _
  exact trim_append_newline l.toList

end SequenceXmi.Text
