import SequenceXmi.Proofs.Text.Places

/-! # Line ends

A carriage return in front of every line feed changes no line: what a line says does not depend on
how the line ends, whatever returns stand in it or before its end already. Only the places of lines
change. Each line moves on by the returns of the lines before it, which are as many as the line
feeds in front of it.

Main result: `movedBy_lines_withReturns`. -/

namespace SequenceXmi.Text

/-! ## Returns -/

/-- The text with a carriage return in front of every line feed. -/
def addReturns (text : List Char) : List Char :=
  text.flatMap fun c => if c = '\n' then ['\r', '\n'] else [c]

/-- The source with a carriage return in front of every line feed. -/
def withReturns (source : String) : String := String.ofList (addReturns source.toList)

theorem addReturns_append (a b : List Char) :
    addReturns (a ++ b) = addReturns a ++ addReturns b := List.flatMap_append

theorem addReturns_newline_cons (text : List Char) :
    addReturns ('\n' :: text) = '\r' :: '\n' :: addReturns text := rfl

theorem addReturns_cons {c : Char} (hc : c ≠ '\n') (text : List Char) :
    addReturns (c :: text) = c :: addReturns text := by
  unfold addReturns
  rw [List.flatMap_cons, if_neg hc]
  rfl

/-- Nothing is added to a text without a line feed. -/
theorem addReturns_eq_self {text : List Char} (h : '\n' ∉ text) : addReturns text = text := by
  induction text with
  | nil => rfl
  | cons c text ih =>
    obtain ⟨hc, htext⟩ : '\n' ≠ c ∧ '\n' ∉ text := by simpa using h
    rw [addReturns_cons hc.symm, ih htext]

/-- Every return takes one byte. -/
theorem byteLength_addReturns (text : List Char) :
    byteLength (addReturns text) = text.count '\n' + byteLength text := by
  induction text with
  | nil => rfl
  | cons c text ih =>
    by_cases hc : c = '\n'
    · subst hc
      rw [addReturns_newline_cons, byteLength_cons, byteLength_cons, ih, byteLength_cons,
        List.count_cons_self]
      have hreturn : '\r'.utf8Size = 1 := rfl
      omega
    · rw [addReturns_cons hc, byteLength_cons, ih, byteLength_cons, List.count_cons_of_ne hc]
      omega

/-- The text is cut where it was cut without the returns. -/
theorem pieces_addReturns (text : List Char) :
    pieces (addReturns text) = (pieces text).map addReturns := by
  induction text with
  | nil => rfl
  | cons c text ih =>
    by_cases hc : c = '\n'
    · subst hc
      -- The return belongs to the piece that the line feed ends.
      show consPiece '\r' (consPiece '\n' (pieces (addReturns text))) = _
      rw [ih]
      rfl
    · rw [addReturns_cons hc]
      show consPiece c (pieces (addReturns text)) = (consPiece c (pieces text)).map addReturns
      rw [ih]
      cases pieces text with
      | nil => simp [consPiece, hc, addReturns]
      | cons piece rest =>
        rw [List.map_cons, consPiece_of_ne hc, consPiece_of_ne hc, List.map_cons,
          addReturns_cons hc]

/-! ## Line feeds in front of a place -/

/-- How many line feeds begin in the first `n` bytes of a text. -/
def newlinesBefore : Nat → List Char → Nat
  | 0, _ => 0
  | _ + 1, [] => 0
  | n + 1, c :: text => (if c = '\n' then 1 else 0) + newlinesBefore (n + 1 - c.utf8Size) text

/-- In front of a part of a text stand the line feeds of what comes before it. -/
theorem newlinesBefore_byteLength_append (a b : List Char) :
    newlinesBefore (byteLength a) (a ++ b) = a.count '\n' := by
  induction a with
  | nil => cases b <;> rfl
  | cons c a ih =>
    have hc := c.utf8Size_pos
    obtain ⟨n, hn⟩ : ∃ n, c.utf8Size + byteLength a = n + 1 := ⟨_, (Nat.succ_pred (by omega)).symm⟩
    have hrest : n + 1 - c.utf8Size = byteLength a := by omega
    rw [byteLength_cons, hn, List.cons_append, newlinesBefore, hrest, ih, List.count_cons]
    by_cases hnewline : c = '\n'
    · simp [hnewline, Nat.add_comm]
    · simp [hnewline]

/-- The span moved on by as many bytes as there are line feeds of the source in front of it. -/
def Span.pastReturns (source : String) (s : Span) : Span :=
  s.shift (newlinesBefore s.start source.toList)

theorem Span.length_shift (n : Nat) (s : Span) : (s.shift n).length = s.length :=
  Nat.add_sub_add_left n s.stop s.start

/-! ## One piece -/

section Piece

variable {text piece : List Char}

/-- A piece without its ending has no line feed. -/
theorem newline_not_mem_dropEndWhile (h : piece ∈ pieces text) :
    '\n' ∉ dropEndWhile isLineEnd piece := by
  have hsubset (whole : List Char) : dropEndWhile isLineEnd whole ⊆ whole := by
    intro c hc
    obtain ⟨ending, hwhole, -⟩ := eq_dropEndWhile_append isLineEnd whole
    rw [hwhole]
    exact List.mem_append_left _ hc
  rcases newline_not_mem_or_last h with hnone | ⟨front, rfl, hfront⟩
  · exact fun hmem => hnone (hsubset piece hmem)
  · rw [dropEndWhile_append_of_all (List.all_eq_true.mp rfl)]
    exact fun hmem => hfront (hsubset front hmem)

/-- The line of a piece is the same with returns. -/
theorem ofPiece_addReturns (h : piece ∈ pieces text) (number offset : Nat) :
    Line.ofPiece number offset (addReturns piece) = Line.ofPiece number offset piece := by
  rcases newline_not_mem_or_last h with hnone | ⟨front, rfl, hfront⟩
  · rw [addReturns_eq_self hnone]
  · have hending : addReturns ['\n'] = ['\r', '\n'] := rfl
    rw [addReturns_append, addReturns_eq_self hfront, hending,
      Line.ofPiece_append_ending _ _ front (List.all_eq_true.mp rfl),
      Line.ofPiece_append_ending _ _ front (List.all_eq_true.mp rfl)]

/-- Between the beginning of a piece and its line there is no line feed. -/
theorem newlinesBefore_start_ofPiece (h : piece ∈ pieces text) (number : Nat)
    (before after : List Char) :
    newlinesBefore (Line.ofPiece number (byteLength before) piece).span.start
      (before ++ piece ++ after) = before.count '\n' := by
  let content := dropEndWhile isLineEnd piece
  let leading := content.takeWhile isWhite
  obtain ⟨ending, hpiece, -⟩ := eq_dropEndWhile_append isLineEnd piece
  have hsplit : piece = leading ++ (content.dropWhile isWhite ++ ending) := by
    rw [← List.append_assoc, List.takeWhile_append_dropWhile]
    exact hpiece
  have hleading : '\n' ∉ leading := by
    intro hmem
    exact newline_not_mem_dropEndWhile h ((List.takeWhile_sublist isWhite).subset hmem)
  have hstart : (Line.ofPiece number (byteLength before) piece).span.start =
      byteLength (before ++ leading) := (byteLength_append before leading).symm
  have hwhole : before ++ piece ++ after =
      (before ++ leading) ++ (content.dropWhile isWhite ++ ending ++ after) := by
    conv_lhs => rw [hsplit]
    simp only [List.append_assoc]
  rw [hstart, hwhole, newlinesBefore_byteLength_append, List.count_append,
    List.count_eq_zero_of_not_mem hleading, Nat.add_zero]

end Piece

/-! ## All pieces -/

/-- A line moves on by the returns in front of its piece. -/
theorem movedBy_ofPiece_addReturns {front piece back : List Char} (h : pieces piece = [piece])
    (number number' : Nat) :
    Line.MovedBy (Span.pastReturns (String.ofList (front ++ piece ++ back)))
      (Line.ofPiece number (byteLength front) piece)
      (Line.ofPiece number' (byteLength (addReturns front)) (addReturns piece)) := by
  have hmem : piece ∈ pieces piece := by rw [h]; exact List.mem_singleton.mpr rfl
  have hmoved := Line.movedBy_ofPiece (front.count '\n') number number' (byteLength front) piece
  rw [ofPiece_addReturns hmem, byteLength_addReturns]
  refine ⟨hmoved.text, ?_⟩
  rw [hmoved.span, Span.pastReturns, String.toList_ofList, newlinesBefore_start_ofPiece hmem]

theorem movedBy_ofPieces_addReturns (front : List Char) {ps : List (List Char)}
    (h : ∀ p ∈ ps, pieces p = [p]) (number number' : Nat) :
    List.Forall₂ (Line.MovedBy (Span.pastReturns (String.ofList (front ++ ps.flatten))))
      (Line.ofPieces number (byteLength front) ps)
      (Line.ofPieces number' (byteLength (addReturns front)) (ps.map addReturns)) := by
  induction ps generalizing front number number' with
  | nil => exact .nil
  | cons p ps ih =>
    have hp := h p List.mem_cons_self
    -- What stands in front of the other pieces is the front and this piece.
    have hrest := ih (front ++ p) (fun q hq => h q (List.mem_cons_of_mem p hq)) (number + 1)
      (number' + 1)
    rw [byteLength_append, addReturns_append, byteLength_append] at hrest
    rw [List.flatten_cons, ← List.append_assoc]
    exact .cons (movedBy_ofPiece_addReturns hp number number') hrest

/-- With returns every line says the same, and has moved on by the line feeds in front of it. -/
theorem movedBy_lines_withReturns (source : String) :
    List.Forall₂ (Line.MovedBy (Span.pastReturns source)) (lines source)
      (lines (withReturns source)) := by
  have hpieces : ∀ p ∈ pieces source.toList, pieces p = [p] := fun _ hp => pieces_of_mem_pieces hp
  have hmoved := movedBy_ofPieces_addReturns [] hpieces 1 1
  rw [List.nil_append, flatten_pieces, String.ofList_toList, ← pieces_addReturns] at hmoved
  unfold lines withReturns
  rw [String.toList_ofList]
  exact hmoved

end SequenceXmi.Text
