import SequenceXmi.Proofs.Text.LineEnds

/-! # Lines cover their source

A source is cut into numbered lines, and nothing that it says is lost on the way. The spans of the
lines follow one another, each begins behind as many line feeds as there are lines before it, and
whatever character lies in no span is white space.

Around its line a piece of the source is white space (`exists_surrounded_ofPiece`); the rest is
counting along the pieces. Main result: `lines_coverSource`. -/

namespace SequenceXmi.Text

/-! ## Characters in spans -/

/-- The span holds all bytes of the character that stands behind this front. -/
def Span.Holds (s : Span) (front : List Char) (c : Char) : Prop :=
  s.start ≤ byteLength front ∧ byteLength (front ++ [c]) ≤ s.stop

/-- Spans that follow one another do not hold the same character. -/
theorem Span.Holds.not_holds {s t : Span} {front : List Char} {c : Char} (h : s.Holds front c)
    (hapart : s.stop < t.start) : ¬ t.Holds front c := by
  intro ht
  have hstop := h.2
  have hstart := ht.1
  rw [byteLength_append] at hstop
  omega

section Between

variable {p : Char → Bool} {front back rest text : List Char} {c : Char}

/-- A character that is unlike all characters of a text does not stand in it. -/
theorem exists_behind (h : text ++ rest = front ++ c :: back) (htext : text.all p)
    (hc : p c = false) : ∃ before, front = text ++ before ∧ rest = before ++ c :: back := by
  rcases List.append_eq_append_iff.mp h with ⟨before, hfront, hrest⟩ | ⟨after, hsplit, hback⟩
  · exact ⟨before, hfront, hrest⟩
  · cases after with
    | nil => exact ⟨[], by simpa using hsplit.symm, by simpa using hback.symm⟩
    | cons d after =>
      obtain ⟨rfl, -⟩ := List.cons.inj hback
      have hmem : c ∈ text := by simp [hsplit]
      rw [List.all_eq_true.mp htext c hmem] at hc
      cases hc

/-- Nor does it stand in such a text at the end. -/
theorem exists_in_front (h : rest ++ text = front ++ c :: back) (htext : text.all p)
    (hc : p c = false) : ∃ after, rest = front ++ c :: after := by
  rcases List.append_eq_append_iff.mp h with ⟨before, -, hsplit⟩ | ⟨after, hrest, hback⟩
  · have hmem : c ∈ text := by simp [hsplit]
    rw [List.all_eq_true.mp htext c hmem] at hc
    cases hc
  · cases after with
    | nil =>
      have hmem : c ∈ text := by
        rw [← List.nil_append text, ← hback]
        exact List.mem_cons_self
      rw [List.all_eq_true.mp htext c hmem] at hc
      cases hc
    | cons d after =>
      obtain ⟨rfl, -⟩ := List.cons.inj hback
      exact ⟨after, hrest⟩

end Between

/-! ## One piece -/

/-- A character of a piece that is no white space lies in the span of its line. -/
theorem holds_ofPiece (number : Nat) {piece before front back : List Char} {c : Char}
    (hpiece : piece = front ++ c :: back) (hc : isWhite c = false) :
    (Line.ofPiece number (byteLength before) piece).span.Holds (before ++ front) c := by
  obtain ⟨leading, trailing, hsplit, hleading, htrailing, -, hspan⟩ :=
    exists_surrounded_ofPiece number (byteLength before) piece
  have hwhole := hsplit.symm.trans hpiece
  rw [List.append_assoc] at hwhole
  obtain ⟨inner, rfl, hrest⟩ := exists_behind hwhole hleading hc
  obtain ⟨after, htext⟩ := exists_in_front hrest htrailing hc
  rw [hspan, htext]
  constructor
  · show byteLength before + byteLength leading ≤ byteLength (before ++ (leading ++ inner))
    simp only [byteLength_append]
    omega
  · show byteLength (before ++ (leading ++ inner) ++ [c]) ≤
      byteLength before + byteLength leading + byteLength (inner ++ c :: after)
    simp only [byteLength_append, byteLength_cons, byteLength_nil]
    omega

/-! ## All pieces -/

/-- Pieces are numbered in order. -/
theorem map_number_ofPieces (number offset : Nat) (ps : List (List Char)) :
    (Line.ofPieces number offset ps).map (·.number) = List.range' number ps.length := by
  induction ps generalizing number offset with
  | nil => rfl
  | cons p ps ih =>
    show number :: (Line.ofPieces _ _ ps).map (·.number) = _
    rw [ih, List.length_cons, List.range'_succ]

/-- Every line feed ends a piece, and there is one more piece if something stands behind the last
line feed. -/
theorem length_pieces (text : List Char) :
    (pieces text).length = text.count '\n' + if EndsLine text then 0 else 1 := by
  induction text with
  | nil => rfl
  | cons c text ih =>
    show (consPiece c (pieces text)).length = _
    by_cases hc : c = '\n'
    · subst hc
      have hends : EndsLine ('\n' :: text) ↔ EndsLine text := by
        cases text <;> simp [EndsLine, List.getLast?_cons_cons]
      unfold consPiece
      rw [if_pos rfl, List.length_cons, ih, List.count_cons_self]
      simp only [hends]
      omega
    · rw [List.count_cons_of_ne hc]
      cases text with
      | nil => simp [consPiece, pieces, hc, EndsLine]
      | cons d text =>
        obtain ⟨p, ps, hps⟩ := List.exists_cons_of_ne_nil (pieces_ne_nil (List.cons_ne_nil d text))
        have hends : EndsLine (c :: d :: text) ↔ EndsLine (d :: text) := by
          simp [EndsLine, List.getLast?_cons_cons]
        rw [hps] at ih ⊢
        rw [consPiece_of_ne hc]
        simp only [hends]
        exact ih

/-- In front of a piece there are as many line feeds as pieces. -/
theorem count_flatten_front {text : List Char} {front back : List (List Char)} {piece : List Char}
    (h : pieces text = front ++ piece :: back) : front.flatten.count '\n' = front.length := by
  have hpairwise := pairwise_pieces text
  rw [h, List.pairwise_append] at hpairwise
  have hcut : ∀ p ∈ front, pieces p = [p] := fun p hp =>
    pieces_of_mem_pieces (by rw [h]; exact List.mem_append_left _ hp : p ∈ pieces text)
  -- Each of them ends with its line feed, since another piece follows.
  have hends : EndsLine front.flatten := by
    rcases List.eq_nil_or_concat front with rfl | ⟨init, last, rfl⟩
    · exact .inl rfl
    · rw [List.concat_eq_append] at hpairwise ⊢
      have hlast : last.getLast? = some '\n' :=
        hpairwise.2.2 last (by simp) piece List.mem_cons_self
      right
      simp [List.flatten_append, List.getLast?_append, hlast]
  have hlength := length_pieces front.flatten
  rw [pieces_flatten hcut hpairwise.1, if_pos hends] at hlength
  exact hlength.symm

/-! ## The lines of a source -/

/-- These lines are the source, cut at its line feeds, without white space around them. -/
structure CoverSource (source : String) (ls : List Line) : Prop where
  /-- There is a line for every line feed, and one for what stands behind the last one. -/
  length : ls.length = source.toList.count '\n' + if EndsLine source.toList then 0 else 1
  numbers : ls.map (·.number) = List.range' 1 ls.length
  /-- The span of a line begins and ends between characters, and covers what the line says. -/
  covers : ∀ line ∈ ls, line.span.Covers source line.text
  slice : ∀ line ∈ ls, line.span.slice source = some (String.ofList line.text)
  newline : ∀ line ∈ ls, '\n' ∉ line.text
  trimmed : ∀ line ∈ ls, Trimmed line.text
  /-- The spans follow one another, and no two of them touch. -/
  apart : ls.Pairwise fun l m => l.span.stop < m.span.start
  /-- In front of a line stand the line feeds of the lines before it. -/
  newlines : ∀ line ∈ ls, ∀ before after, source.toList = before ++ after →
    line.span.start = byteLength before → before.count '\n' + 1 = line.number
  /-- A character of the source is white space, or it lies in the span of a line. -/
  outside : ∀ front c back, source.toList = front ++ c :: back →
    isWhite c ∨ ∃ line ∈ ls, line.span.Holds front c
  /-- It does not lie in the spans of two lines. -/
  unique : ∀ front c, ∀ l ∈ ls, ∀ m ∈ ls, l.span.Holds front c → m.span.Holds front c → l = m

section Source

variable {source : String}

theorem length_lines (source : String) :
    (lines source).length = (pieces source.toList).length := by
  have hnumbers := map_number_ofPieces 1 0 (pieces source.toList)
  simpa [lines] using congrArg List.length hnumbers

theorem count_newline_of_mem_lines {line : Line} (h : line ∈ lines source)
    {before after : List Char} (hsource : source.toList = before ++ after)
    (hstart : line.span.start = byteLength before) : before.count '\n' + 1 = line.number := by
  obtain ⟨front, piece, back, hps, hline⟩ := exists_piece_of_mem_ofPieces h
  have hwhole : source.toList = front.flatten ++ piece ++ back.flatten := by
    rw [← flatten_pieces source.toList, hps]
    simp
  have hpiece : piece ∈ pieces source.toList := by simp [hps]
  rw [Nat.zero_add] at hline
  have hnewlines := newlinesBefore_start_ofPiece hpiece (1 + front.length) front.flatten
    back.flatten
  rw [← hline, ← hwhole, hstart, hsource, newlinesBefore_byteLength_append,
    count_flatten_front hps] at hnewlines
  rw [hnewlines, hline, Nat.add_comm]
  rfl

/-- Every character of a source stands in one of the pieces. -/
theorem exists_piece_of_eq_append {text front back : List Char} {c : Char}
    (h : text = front ++ c :: back) :
    ∃ ps piece qs inner after, pieces text = ps ++ piece :: qs ∧ piece = inner ++ c :: after ∧
      front = ps.flatten ++ inner := by
  rw [← flatten_pieces text] at h
  rcases List.flatten_eq_append_iff.mp h with
    ⟨ps, qs, hpieces, hfront, hback⟩ | ⟨ps, inner, d, after, qs, hpieces, hfront, hback⟩
  · -- The character begins a piece, behind pieces that are empty.
    obtain ⟨empty, after, rest, hqs, hempty, -⟩ := List.flatten_eq_cons_iff.mp hback.symm
    have hnone : empty.flatten = [] := List.flatten_eq_nil_iff.mpr hempty
    refine ⟨ps ++ empty, c :: after, rest, [], after, ?_, rfl, ?_⟩
    · rw [hpieces, hqs, List.append_assoc]
    · rw [hfront, List.flatten_append, hnone, List.append_nil, List.append_nil]
  · obtain ⟨rfl, -⟩ := List.cons.inj hback
    exact ⟨ps, inner ++ c :: after, qs, inner, after, hpieces, rfl, hfront⟩

/-- A character that is no white space lies in the span of the line of its piece. -/
theorem exists_line_holds {front back : List Char} {c : Char}
    (hsource : source.toList = front ++ c :: back) (hc : isWhite c = false) :
    ∃ line ∈ lines source, line.span.Holds front c := by
  obtain ⟨ps, piece, qs, inner, after, hpieces, hpiece, rfl⟩ := exists_piece_of_eq_append hsource
  refine ⟨Line.ofPiece (1 + ps.length) (byteLength ps.flatten) piece, ?_,
    holds_ofPiece _ hpiece hc⟩
  unfold lines
  rw [hpieces, Line.ofPieces_append, Nat.zero_add]
  exact List.mem_append_right _ List.mem_cons_self

/-- No character lies in the spans of two lines. -/
theorem eq_of_holds {l m : Line} (hl : l ∈ lines source) (hm : m ∈ lines source)
    {front : List Char} {c : Char} (hlc : l.span.Holds front c) (hmc : m.span.Holds front c) :
    l = m := by
  obtain ⟨i, hi, rfl⟩ := List.getElem_of_mem hl
  obtain ⟨j, hj, rfl⟩ := List.getElem_of_mem hm
  have hapart := List.pairwise_iff_getElem.mp (pairwise_lines source)
  rcases Nat.lt_trichotomy i j with hlt | heq | hgt
  · exact absurd hmc (hlc.not_holds (hapart i j hi hj hlt))
  · subst heq
    rfl
  · exact absurd hlc (hmc.not_holds (hapart j i hj hi hgt))

end Source

/-- The lines of any source cover it. -/
theorem lines_coverSource (source : String) : CoverSource source (lines source) where
  length := by rw [length_lines, length_pieces]
  numbers := by
    rw [length_lines]
    exact map_number_ofPieces 1 0 (pieces source.toList)
  covers _ h := covers_of_mem_lines h
  slice _ h := (covers_of_mem_lines h).slice
  newline _ h := newline_not_mem_of_mem_lines h
  trimmed _ h := trimmed_of_mem_lines h
  apart := pairwise_lines source
  newlines _ h _ _ hsource hstart := count_newline_of_mem_lines h hsource hstart
  outside _ c _ hsource := by
    cases hc : isWhite c with
    | true => exact .inl rfl
    | false => exact .inr (exists_line_holds hsource hc)
  unique _ _ _ hl _ hm hlc hmc := eq_of_holds hl hm hlc hmc

end SequenceXmi.Text
