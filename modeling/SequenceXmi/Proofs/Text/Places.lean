import SequenceXmi.Proofs.Text.Keeping

/-! # Where lines stand

Offsets of lines are counted up piece by piece, and white space in front of a line moves its span
on (`exists_surrounded_ofPiece`). Here it is shown that the spans so counted are right: each covers
what its line says (`covers_of_mem_lines`), and none reaches the next one, since a line feed stands
between (`pairwise_lines`).

What a line says is trimmed and has no line feed (`trimmed_of_mem_lines`,
`newline_not_mem_of_mem_lines`). -/

namespace SequenceXmi.Text

/-! ## Covered texts -/

/-- The text stands in the source, and the span goes from its first byte to its last one. -/
def Span.Covers (s : Span) (source : String) (text : List Char) : Prop :=
  ∃ before after, source.toList = before ++ text ++ after ∧
    s.start = byteLength before ∧ s.stop = byteLength (before ++ text)

/-- A span that covers a text is cut to this text, since characters begin at both its ends. -/
theorem Span.Covers.slice {s : Span} {source : String} {text : List Char}
    (h : s.Covers source text) : s.slice source = some (String.ofList text) := by
  obtain ⟨before, after, hsource, hstart, hstop⟩ := h
  have hspan : s = .ofLength (byteLength before) (byteLength text) := by
    rw [byteLength_append] at hstop
    cases s
    simp only [Span.ofLength, Span.mk.injEq]
    exact ⟨hstart, hstop⟩
  rw [hspan, ← String.ofList_toList (s := source), hsource]
  exact slice_ofLength before text after

theorem byteLength_pos {text : List Char} (h : text ≠ []) : 0 < byteLength text := by
  cases text with
  | nil => exact absurd rfl h
  | cons c text =>
    have hc := c.utf8Size_pos
    rw [byteLength_cons]
    omega

/-! ## One piece -/

section Piece

variable (number offset : Nat) (piece : List Char)

/-- A piece is what its line says, between white space. A line feed at the end of the piece is part
of the white space behind. -/
theorem exists_surrounded_ofPiece :
    ∃ leading trailing, piece = leading ++ (Line.ofPiece number offset piece).text ++ trailing ∧
      leading.all isWhite ∧ trailing.all isWhite ∧
      (piece.getLast? = some '\n' → trailing ≠ []) ∧
      (Line.ofPiece number offset piece).span =
        .ofLength (offset + byteLength leading)
          (byteLength (Line.ofPiece number offset piece).text) := by
  let content := dropEndWhile isLineEnd piece
  obtain ⟨ending, hpiece, hending⟩ := eq_dropEndWhile_append isLineEnd piece
  obtain ⟨trailing, htrimmed, htrailing⟩ := eq_dropEndWhile_append isWhite (trimStart content)
  have hcontent : content = content.takeWhile isWhite ++ (trim content ++ trailing) := by
    conv_lhs => rw [← List.takeWhile_append_dropWhile (p := isWhite) (l := content)]
    exact congrArg (content.takeWhile isWhite ++ ·) htrimmed
  refine ⟨content.takeWhile isWhite, trailing ++ ending, ?_, List.all_takeWhile, ?_, ?_, rfl⟩
  · calc piece
      _ = content ++ ending := hpiece
      _ = content.takeWhile isWhite ++ (trim content ++ trailing) ++ ending :=
        congrArg (· ++ ending) hcontent
      _ = content.takeWhile isWhite ++ trim content ++ (trailing ++ ending) := by
        simp only [List.append_assoc]
  · have hwhite : ending.all isWhite := List.all_eq_true.mpr fun c hc =>
      isWhite_of_isLineEnd (List.all_eq_true.mp hending c hc)
    rw [List.all_append, htrailing, hwhite]
    rfl
  · intro hlast hnil
    rw [(List.append_eq_nil_iff.mp hnil).2, List.append_nil] at hpiece
    have hkept := getLast?_dropEndWhile (p := isLineEnd) '\n' (hpiece ▸ hlast)
    exact absurd hkept (by decide)

/-- The line of a piece is covered where the piece stands. -/
theorem covers_ofPiece (before after : List Char) :
    (Line.ofPiece number (byteLength before) piece).span.Covers
      (String.ofList (before ++ piece ++ after))
      (Line.ofPiece number (byteLength before) piece).text := by
  obtain ⟨leading, trailing, hpiece, -, -, -, hspan⟩ :=
    exists_surrounded_ofPiece number (byteLength before) piece
  refine ⟨before ++ leading, trailing ++ after, ?_, ?_, ?_⟩
  · rw [String.toList_ofList]
    conv_lhs => rw [hpiece]
    simp only [List.append_assoc]
  · rw [hspan, byteLength_append]
    rfl
  · rw [hspan, byteLength_append, byteLength_append]
    rfl

/-- A line does not begin before its piece. -/
theorem le_start_ofPiece : offset ≤ (Line.ofPiece number offset piece).span.start :=
  Nat.le_add_right _ _

/-- A line that has a line feed at its end stops before it. -/
theorem stop_ofPiece_lt (h : piece.getLast? = some '\n') :
    (Line.ofPiece number offset piece).span.stop < offset + byteLength piece := by
  obtain ⟨leading, trailing, hpiece, -, -, htrailing, hspan⟩ :=
    exists_surrounded_ofPiece number offset piece
  have hpos := byteLength_pos (htrailing h)
  have hlength := congrArg byteLength hpiece
  rw [byteLength_append, byteLength_append] at hlength
  rw [hspan]
  show offset + byteLength leading + byteLength (Line.ofPiece number offset piece).text < _
  omega

end Piece

/-! ## All pieces -/

/-- A line of a text comes from one of its pieces. -/
theorem exists_piece_of_mem_ofPieces {number offset : Nat} {ps : List (List Char)} {line : Line}
    (h : line ∈ Line.ofPieces number offset ps) :
    ∃ front piece back, ps = front ++ piece :: back ∧
      line = Line.ofPiece (number + front.length) (offset + byteLength front.flatten) piece := by
  induction ps generalizing number offset with
  | nil => exact absurd h List.not_mem_nil
  | cons p ps ih =>
    rcases List.mem_cons.mp h with hfirst | hrest
    · exact ⟨[], p, ps, rfl, hfirst⟩
    · obtain ⟨front, piece, back, hps, hline⟩ := ih hrest
      refine ⟨p :: front, piece, back, by rw [hps]; rfl, ?_⟩
      rw [hline, List.flatten_cons, byteLength_append, List.length_cons, Nat.add_assoc,
        Nat.add_assoc, Nat.add_comm 1]

/-- No line begins before the first piece. -/
theorem le_start_of_mem_ofPieces {number offset : Nat} {ps : List (List Char)} {line : Line}
    (h : line ∈ Line.ofPieces number offset ps) : offset ≤ line.span.start := by
  obtain ⟨front, piece, back, -, hline⟩ := exists_piece_of_mem_ofPieces h
  have hle := le_start_ofPiece (number + front.length) (offset + byteLength front.flatten) piece
  rw [hline]
  omega

/-- Lines follow one another, if line feeds stand between the pieces. -/
theorem pairwise_ofPieces {number offset : Nat} {ps : List (List Char)}
    (h : ps.Pairwise fun p _ => p.getLast? = some '\n') :
    (Line.ofPieces number offset ps).Pairwise fun l m => l.span.stop < m.span.start := by
  induction ps generalizing number offset with
  | nil => exact List.Pairwise.nil
  | cons p ps ih =>
    rw [List.pairwise_cons] at h
    refine List.pairwise_cons.mpr ⟨?_, ih h.2⟩
    intro m hm
    have hstart := le_start_of_mem_ofPieces hm
    -- Another line follows, so that there is another piece.
    obtain ⟨front, piece, back, hps, -⟩ := exists_piece_of_mem_ofPieces hm
    have hstop := stop_ofPiece_lt number offset p (h.1 piece (by simp [hps]))
    omega

/-! ## The lines of a source -/

section Source

variable {source : String} {line : Line}

/-- The span of a line covers what the line says. -/
theorem covers_of_mem_lines (h : line ∈ lines source) : line.span.Covers source line.text := by
  obtain ⟨front, piece, back, hps, hline⟩ := exists_piece_of_mem_ofPieces h
  have hsource : source = String.ofList (front.flatten ++ piece ++ back.flatten) := by
    rw [← String.toList_inj, String.toList_ofList, ← flatten_pieces source.toList, hps]
    simp
  rw [hline, hsource, Nat.zero_add]
  exact covers_ofPiece (1 + front.length) piece front.flatten back.flatten

/-- Lines follow one another, and the spans of no two of them touch. -/
theorem pairwise_lines (source : String) :
    (lines source).Pairwise fun l m => l.span.stop < m.span.start :=
  pairwise_ofPieces (pairwise_pieces source.toList)

/-- A line is known by its span. -/
theorem eq_of_span_eq {m : Line} (hl : line ∈ lines source) (hm : m ∈ lines source)
    (h : line.span = m.span) : line = m := by
  obtain ⟨i, hi, rfl⟩ := List.getElem_of_mem hl
  obtain ⟨j, hj, rfl⟩ := List.getElem_of_mem hm
  have hbetween := List.pairwise_iff_getElem.mp (pairwise_lines source)
  have hi_le := (lines source)[i].span.start_le_stop
  have hj_le := (lines source)[j].span.start_le_stop
  rcases Nat.lt_trichotomy i j with hlt | heq | hgt
  · have hapart := hbetween i j hi hj hlt
    rw [h] at hapart hi_le
    omega
  · subst heq
    rfl
  · have hapart := hbetween j i hj hi hgt
    rw [← h] at hapart hj_le
    omega

/-- What a line says is a piece of the source without white space around it. -/
theorem exists_text_eq_trim (h : line ∈ lines source) :
    ∃ piece ∈ pieces source.toList, line.text = trim piece := by
  have htext : line.text ∈ (pieces source.toList).map trim := by
    rw [← map_text_ofPieces 1 0]
    exact List.mem_map_of_mem h
  obtain ⟨piece, hpiece, heq⟩ := List.mem_map.mp htext
  exact ⟨piece, hpiece, heq.symm⟩

theorem trimmed_of_mem_lines (h : line ∈ lines source) : Trimmed line.text := by
  obtain ⟨piece, -, htext⟩ := exists_text_eq_trim h
  rw [htext]
  exact trimmed_trim piece

/-- A piece has no line feed but the last character. -/
theorem newline_not_mem_or_last {text piece : List Char} (h : piece ∈ pieces text) :
    '\n' ∉ piece ∨ ∃ front, piece = front ++ ['\n'] ∧ '\n' ∉ front := by
  by_cases hmem : '\n' ∈ piece
  · right
    obtain ⟨front, back, hpiece, hfront⟩ := List.eq_append_cons_of_mem hmem
    have hone := pieces_of_mem_pieces h
    rw [hpiece, pieces_line_append hfront] at hone
    -- What follows the first line feed would be one more piece.
    have hback : back = [] := by
      by_contra hne
      exact pieces_ne_nil hne (List.cons.inj hone).2
    exact ⟨front, by rw [hpiece, hback], hfront⟩
  · exact .inl hmem

theorem newline_not_mem_of_mem_lines (h : line ∈ lines source) : '\n' ∉ line.text := by
  obtain ⟨piece, hpiece, htext⟩ := exists_text_eq_trim h
  rw [htext]
  rcases newline_not_mem_or_last hpiece with hnone | ⟨front, rfl, hfront⟩
  · exact fun hmem => hnone ((isInfix_trim piece).subset hmem)
  · rw [trim_append_newline]
    exact fun hmem => hfront ((isInfix_trim front).subset hmem)

end Source

end SequenceXmi.Text
