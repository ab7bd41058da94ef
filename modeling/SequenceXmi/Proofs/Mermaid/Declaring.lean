import SequenceXmi.Proofs.Text.Joining
import SequenceXmi.Proofs.Mermaid.WellFormed

/-! # Declaring one more participant

The ends of a message are words (`isName_of_mem_allMessages`), and every word can be declared. A
line that declares it can be put at the end of any text, whatever fragments are open there and
however the last line ends.

Main result: `read_declaring`. The line adds one lifeline, and no other line is read in another way
or in another place, so that all warnings stay as they are. -/

namespace SequenceXmi.Mermaid

open Text

/-! ## Messages name words -/

/-- The ends of a message that can be written are words. -/
theorem MessageFits.isName_ends {m : Message} (h : MessageFits m) :
    IsName m.sender ∧ IsName m.receiver := by
  unfold MessageFits at h
  cases hkind : m.kind with
  | synchronous =>
    rw [hkind] at h
    exact ⟨h.1, h.2.1⟩
  | note =>
    rw [hkind] at h
    obtain ⟨hsender, hreceiver, -⟩ := h
    rw [hreceiver]
    exact ⟨hsender, hsender⟩

/-- The ends of every message that is read are words. -/
theorem isName_of_mem_allMessages (nesting : Nesting) (source : String) {m : Message}
    (hm : m ∈ (read nesting source).diagram.allMessages) : IsName m.sender ∧ IsName m.receiver := by
  rw [diagram_read] at hm
  have hsent := (perm_allMessages_route nesting _).subset hm
  obtain ⟨st, hst, hmessage⟩ := List.mem_filterMap.mp hsent
  exact ((printable_of_mem_accepted hst).messageFits hmessage).isName_ends

/-! ## One more line -/

/-- The text with one more line at its end, which declares a participant. -/
def declaring (aliasName source : String) : String :=
  source ++ "\n" ++ (Statement.participant aliasName none).print

/-- The diagram with one more lifeline at its end. -/
def withLifeline (d : Diagram) (aliasName : String) : Diagram :=
  { d with lifelines := d.lifelines ++ [⟨aliasName, aliasName⟩] }

/-- A text without a line feed is one line. -/
theorem pieces_of_newline_not_mem {text : List Char} (hne : text ≠ []) (h : '\n' ∉ text) :
    pieces text = [text] := by
  have hends : ¬ EndsLine text := by
    rintro (hnil | hlast)
    · exact hne hnil
    · exact h (List.mem_of_getLast? hlast)
  -- With a line feed after it the text is one piece, which has the line feed at its end.
  obtain ⟨front, last, hbefore, hafter⟩ := pieces_concat_newline hends
  rw [pieces_line_append h] at hafter
  cases front with
  | nil =>
    have hlast : text ++ ['\n'] = last ++ ['\n'] := (List.cons.inj hafter).1
    rw [hbefore, List.append_cancel_right hlast]
    rfl
  | cons piece front => simp [pieces] at hafter

/-- Blank lines do nothing. -/
theorem foldl_step_of_blank (nesting : Nesting) (p : Progress) {blank : List Line}
    (h : ∀ line ∈ blank, line.text = []) : blank.foldl (Progress.step nesting) p = p := by
  induction blank with
  | nil => rfl
  | cons line blank ih =>
    have hline : p.step nesting line = p := by
      unfold Progress.step Line.isIgnorable
      rw [h line List.mem_cons_self]
      rfl
    rw [List.foldl_cons, hline]
    exact ih fun l hl => h l (List.mem_cons_of_mem line hl)

/-- The line that declares a participant is one line, and says so. -/
theorem exists_lines_print {aliasName : String} (h : IsName aliasName) :
    ∃ line, lines (Statement.participant aliasName none).print = [line] ∧
      statement? line = some (.participant aliasName none) := by
  have hprintable : (Statement.participant aliasName none).Printable := ⟨h, by simp⟩
  have hne : (Statement.participant aliasName none).print.toList ≠ [] := by
    simp [Statement.print]
  have hpieces := pieces_of_newline_not_mem hne (newline_not_mem_print hprintable)
  refine ⟨Line.ofPiece 1 0 (Statement.participant aliasName none).print.toList, ?_, ?_⟩
  · unfold lines
    rw [hpieces]
    rfl
  · apply statement?_of_text hprintable
    exact trim_dropEndWhile_isLineEnd _

/-- A line that declares a word can be put at the end of any text. It adds a lifeline of this name,
and changes nothing else: neither the messages and fragments nor any warning. -/
theorem read_declaring (nesting : Nesting) {aliasName : String} (h : IsName aliasName)
    (source : String) :
    read nesting (declaring aliasName source) =
      { read nesting source with
        diagram := withLifeline (read nesting source).diagram aliasName } := by
  obtain ⟨line, hprint, hline⟩ := exists_lines_print h
  obtain ⟨blank, hblank, hempty⟩ := lines_append_newline source
  have hends : EndsLine (source ++ "\n").toList := by
    right
    simp
  obtain ⟨after, hafter, hmoved⟩ := lines_append hends (Statement.participant aliasName none).print
  rw [hprint] at hmoved
  let p := (lines source).foldl (Progress.step nesting) .start
  -- Of the lines that are added only the last one says something.
  have hrun : (lines (declaring aliasName source)).foldl (Progress.step nesting) .start =
      p.declare ⟨aliasName, aliasName⟩ := by
    unfold declaring
    rw [hafter, hblank, List.foldl_append, List.foldl_append, foldl_step_of_blank _ _ hempty]
    cases hmoved with
    | @cons _ moved _ _ hline' hnone =>
      cases hnone with
      | nil =>
        have hsays : statement? moved = some (.participant aliasName none) := by
          unfold statement? Line.isIgnorable
          rw [hline'.text]
          exact hline
        show Progress.step nesting p moved = _
        rw [step_of_statement? hsays]
        rfl
  unfold read
  rw [hrun]
  rfl

end SequenceXmi.Mermaid
