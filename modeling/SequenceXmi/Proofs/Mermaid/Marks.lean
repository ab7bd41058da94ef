import SequenceXmi.Proofs.Mermaid.Inert
import SequenceXmi.Proofs.Mermaid.Structure

/-! # Where warnings point

A warning marks lines of the source, and nothing but whole lines: the span of a mark was taken from
a line when the line was read, also if the warning comes much later, at the end of the text. One
mark is on the line that the warning is about, and the line is in the trouble that the warning
names.

Only an opening that closes a fragment is reported with a second mark, on the opening before it.

Main result: `marksLines_of_mem_warnings`. -/

namespace SequenceXmi.Mermaid

open Text

/-! ## Places of lines -/

/-- The span is the place of the line in the source. It begins and ends between characters, and goes
from the first character of the line to the last one, white space around them apart. -/
structure IsPlaceOf (span : Span) (source : String) (line : Line) : Prop where
  mem : line ∈ lines source
  span_eq : line.span = span
  /-- No other line has this place. -/
  unique : ∀ other ∈ lines source, other.span = span → other = line
  /-- The line is neither blank nor a comment. -/
  spoken : line.isIgnorable = false
  /-- It says what is between two line feeds, trimmed. -/
  piece : ∃ piece ∈ pieces source.toList, line.text = trim piece
  trimmed : Trimmed line.text
  newline : '\n' ∉ line.text
  covers : span.Covers source line.text
  slice : span.slice source = some (String.ofList line.text)

theorem isPlaceOf_span {source : String} {line : Line} (hmem : line ∈ lines source)
    (hspoken : line.isIgnorable = false) : IsPlaceOf line.span source line where
  mem := hmem
  span_eq := rfl
  unique := fun _ hother hspan => eq_of_span_eq hother hmem hspan
  spoken := hspoken
  piece := exists_text_eq_trim hmem
  trimmed := trimmed_of_mem_lines hmem
  newline := newline_not_mem_of_mem_lines hmem
  covers := covers_of_mem_lines hmem
  slice := (covers_of_mem_lines hmem).slice

theorem isPlaceOf_bracket {source : String} {b : Bracket} (h : b ∈ brackets source) :
    IsPlaceOf b.line.span source b.line :=
  isPlaceOf_span ((lines_brackets_sublist source).subset (List.mem_map_of_mem h)) b.isIgnorable_line

/-! ## Annotations -/

/-- The annotation says the same as the mark. -/
structure Annotates (m : Mark) (a : Annotation) : Prop where
  start : a.offset = m.span.start
  stop : a.offset + a.length = m.span.stop
  label : a.label = m.message
  isPrimary : a.isPrimary = m.isPrimary

theorem annotates_ofMark (m : Mark) : Annotates m (.ofMark m) := by
  have hle := m.span.start_le_stop
  refine ⟨rfl, ?_, rfl, rfl⟩
  show m.span.start + (m.span.stop - m.span.start) = m.span.stop
  omega

/-- A warning with marks has an annotation for each of them. -/
theorem exists_annotations {w : Warning} (h : w.marks ≠ []) :
    ∃ as, w.annotations? = some as ∧ List.Forall₂ Annotates w.marks as := by
  refine ⟨w.marks.map .ofMark, if_neg (by simpa using h), ?_⟩
  rw [List.forall₂_map_right_iff]
  exact List.forall₂_same.mpr fun m _ => annotates_ofMark m

/-! ## Causes -/

/-- The line is in this trouble: it is an unbalanced bracket, or it is rejected. -/
def Causes (nesting : Nesting) (source : String) (line : Line) : Trouble → Prop
  | .unmatchedEnd => ∃ b ∈ unmatchedEnds nesting (brackets source), b.line = line
  | .unclosedFragment => ∃ b ∈ unclosedOpenings nesting (brackets source), b.line = line
  | .implicitlyClosed => ∃ pair ∈ replacements nesting (brackets source), pair.2.line = line
  | t => Statement.ofLine line.text = .error t

theorem causes_of_ofLine_eq_error (nesting : Nesting) (source : String) {line : Line} {t : Trouble}
    (h : Statement.ofLine line.text = .error t) : Causes nesting source line t := by
  have ht := isSkippedLine_of_ofLine_eq_error h
  cases t with
  | unrecognizedLine | malformedParticipant | malformedMessage | malformedNote => exact h
  | unmatchedEnd | unclosedFragment | implicitlyClosed => cases ht

/-! ## Marked lines -/

/-- The warning marks lines of the source, one of them as the line that it is about. -/
structure MarksLines (nesting : Nesting) (source : String) (w : Warning) : Prop where
  /-- It says what to do. -/
  advice : ∃ advice, w.advice = some advice ∧ advice ≠ ""
  /-- There is exactly one primary mark. Its line is in the trouble that the warning is about. -/
  primary : ∃ t m line, w.trouble = some t ∧ w.marks.filter (·.isPrimary) = [m] ∧
    IsPlaceOf m.span source line ∧ Causes nesting source line t
  /-- Every mark is on a line. -/
  marks : ∀ m ∈ w.marks, ∃ line, IsPlaceOf m.span source line
  /-- Any other mark is on an earlier line, and only openings that close a fragment have one. -/
  secondary : ∀ m ∈ w.marks, m.isPrimary = false → w.trouble = some .implicitlyClosed ∧
    ∀ n ∈ w.marks, n.isPrimary → m.span.stop < n.span.start
  /-- Printers get the same marks in the same order. -/
  annotations : ∃ as, w.annotations? = some as ∧ List.Forall₂ Annotates w.marks as

section

variable {nesting : Nesting} {source : String}

/-- A warning with one mark, on the line that it is about. -/
theorem marksLines_of_alone {w : Warning} {line : Line} {t : Trouble} {message : String}
    (hadvice : ∃ advice, w.advice = some advice ∧ advice ≠ "") (ht : w.trouble = some t)
    (hmarks : w.marks = [⟨line.span, message, true⟩]) (hline : IsPlaceOf line.span source line)
    (hcauses : Causes nesting source line t) : MarksLines nesting source w := by
  refine ⟨hadvice, ⟨t, ⟨line.span, message, true⟩, line, ht, ?_, hline, hcauses⟩, ?_, ?_, ?_⟩
  · rw [hmarks]
    rfl
  · intro m hm
    rw [hmarks] at hm
    obtain rfl := List.mem_singleton.mp hm
    exact ⟨line, hline⟩
  · intro m hm hprimary
    rw [hmarks] at hm
    obtain rfl := List.mem_singleton.mp hm
    cases hprimary
  · exact exists_annotations (by simp [hmarks])

theorem marksLines_skippedLine {line : Line} {t : Trouble} (hmem : line ∈ lines source)
    (hspoken : line.isIgnorable = false) (h : Statement.ofLine line.text = .error t) :
    MarksLines nesting source (.skippedLine t line) := by
  have hadvice : t.skippedAdvice ≠ "" := by cases t <;> decide
  exact marksLines_of_alone ⟨_, rfl, hadvice⟩ rfl rfl (isPlaceOf_span hmem hspoken)
    (causes_of_ofLine_eq_error nesting source h)

theorem marksLines_unmatchedEnd {b : Bracket} (h : b ∈ unmatchedEnds nesting (brackets source)) :
    MarksLines nesting source (.unmatchedEnd b.line.span) :=
  marksLines_of_alone ⟨_, rfl, by decide⟩ rfl rfl
    (isPlaceOf_bracket (unmatchedEnds_sublist.subset h)) ⟨b, h, rfl⟩

theorem marksLines_unclosedFragment (operator : Operator) {b : Bracket}
    (h : b ∈ unclosedOpenings nesting (brackets source)) :
    MarksLines nesting source (.unclosedFragment operator b.line.span) :=
  marksLines_of_alone ⟨_, rfl, by decide⟩ rfl rfl
    (isPlaceOf_bracket (unclosedOpenings_sublist.subset h)) ⟨b, h, rfl⟩

/-- Of the two marks the second one is on the earlier line. -/
theorem marksLines_implicitlyClosed (operator : Operator) {pair : Bracket × Bracket}
    (h : pair ∈ replacements nesting (brackets source)) :
    MarksLines nesting source
      (.implicitlyClosed operator pair.2.line.span pair.1.line.span) := by
  obtain ⟨hfirst, hsecond, hbefore⟩ := of_mem_replacements h
  have hplace := isPlaceOf_bracket hsecond
  refine ⟨⟨_, rfl, by decide⟩, ⟨_, _, pair.2.line, rfl, rfl, hplace, pair, h, rfl⟩, ?_, ?_, ?_⟩
  · intro m hm
    rcases List.mem_pair.mp hm with rfl | rfl
    · exact ⟨pair.2.line, hplace⟩
    · exact ⟨pair.1.line, isPlaceOf_bracket hfirst⟩
  · intro m hm hsecondary
    refine ⟨rfl, fun n hn hprimary => ?_⟩
    rcases List.mem_pair.mp hm with rfl | rfl
    · cases hsecondary
    · rcases List.mem_pair.mp hn with rfl | rfl
      · exact hbefore
      · cases hprimary
  · exact exists_annotations (List.cons_ne_nil _ _)

/-! ## Reading -/

/-- The forms of the warnings that reading gives. -/
inductive IsGiven : Warning → Prop where
  | skippedLine (t : Trouble) (line : Line) : t.isSkippedLine → IsGiven (.skippedLine t line)
  | implicitlyClosed (operator : Operator) (span previous : Span) :
    IsGiven (.implicitlyClosed operator span previous)
  | unmatchedEnd (span : Span) : IsGiven (.unmatchedEnd span)
  | unclosedFragment (operator : Operator) (span : Span) : IsGiven (.unclosedFragment operator span)

theorem isGiven_of_mem_warnings {w : Warning} (h : w ∈ (read nesting source).warnings) :
    IsGiven w := by
  rcases List.mem_append.mp h with hline | hend
  · refine Progress.forall_warnings_foldl (P := IsGiven) ?_ (lines source) w hline
    intro opened line w hw
    rcases report?_cases hw with ⟨t, ht, rfl⟩ | ⟨operator, previous, -, rfl⟩ | ⟨-, rfl⟩
    · exact .skippedLine t line ht
    · exact .implicitlyClosed operator line.span previous
    · exact .unmatchedEnd line.span
  · obtain ⟨operator, span, rfl⟩ := Progress.exists_of_unclosed? _ hend
    exact .unclosedFragment operator span

/-- A warning has its places among those of its kind. -/
theorem places_mem_placesAbout {r : Reading} {w : Warning} {t : Trouble} (hw : w ∈ r.warnings)
    (ht : w.isAbout t) : w.places ∈ r.placesAbout t :=
  List.mem_map_of_mem (List.mem_filter.mpr ⟨hw, ht⟩)

/-- A warning about a line that is left out has the place and the trouble of this line. -/
theorem exists_line_of_skippedLine {w : Warning} (hw : w ∈ (read nesting source).warnings)
    (hskipped : w.isSkippedLine) :
    ∃ t, ∃ line ∈ lines source, line.isIgnorable = false ∧
      Statement.ofLine line.text = .error t ∧ w = .skippedLine t line := by
  have hmem : w ∈ (read nesting source).skippedLines := List.mem_filter.mpr ⟨hw, hskipped⟩
  rw [skippedLines_read] at hmem
  obtain ⟨line, hline, hsome⟩ := List.mem_filterMap.mp hmem
  rcases line_cases line with ⟨-, -, hnone⟩ | ⟨st, -, -, -, hnone⟩ | ⟨t, hspoken, hst, -, hleft⟩
  · rw [hnone] at hsome
    cases hsome
  · rw [hnone] at hsome
    cases hsome
  · rw [hleft] at hsome
    exact ⟨t, line, hline, hspoken, hst, (Option.some.inj hsome).symm⟩

end

/-- Whatever the text, each of its warnings marks whole lines, and one of them as the line that is
in trouble. -/
theorem marksLines_of_mem_warnings (nesting : Nesting) (source : String) :
    ∀ w ∈ (read nesting source).warnings, MarksLines nesting source w := by
  intro w hw
  cases isGiven_of_mem_warnings hw with
  | skippedLine t line ht =>
    obtain ⟨u, line', hline, hspoken, hst, heq⟩ := exists_line_of_skippedLine hw ht
    rw [heq]
    exact marksLines_skippedLine hline hspoken hst
  | implicitlyClosed operator span previous =>
    have hplaces := places_mem_placesAbout (t := .implicitlyClosed) hw rfl
    rw [placesAbout_replaced_read] at hplaces
    obtain ⟨pair, hpair, heq⟩ := List.mem_map.mp hplaces
    obtain rfl : pair.2.line.span = span := Option.some.inj (congrArg Prod.fst heq)
    obtain rfl : pair.1.line.span = previous := List.singleton_inj.mp (congrArg Prod.snd heq)
    exact marksLines_implicitlyClosed operator hpair
  | unmatchedEnd span =>
    have hplaces := places_mem_placesAbout (t := .unmatchedEnd) hw rfl
    rw [placesAbout_unmatched_read] at hplaces
    obtain ⟨b, hb, heq⟩ := List.mem_map.mp hplaces
    obtain rfl : b.line.span = span := Option.some.inj (congrArg Prod.fst heq)
    exact marksLines_unmatchedEnd hb
  | unclosedFragment operator span =>
    have hplaces := places_mem_placesAbout (t := .unclosedFragment) hw rfl
    rw [placesAbout_unclosed_read] at hplaces
    obtain ⟨b, hb, heq⟩ := List.mem_map.mp hplaces
    obtain rfl : b.line.span = span := Option.some.inj (congrArg Prod.fst heq)
    exact marksLines_unclosedFragment operator hb

/-- A text with letters of two bytes, both line endings and indentation. Its loop closes the
fragment before it. -/
def indentedText : String := "alt é\r\n\t loop ü\r\n end\nend"

theorem marksLines_indentedText :
    .implicitlyClosed .loop (.ofLength 10 7) (.ofLength 0 6) ∈ (read .flat indentedText).warnings ∧
      MarksLines .flat indentedText
        (.implicitlyClosed .loop (.ofLength 10 7) (.ofLength 0 6)) := by
  have hmem : .implicitlyClosed .loop (.ofLength 10 7) (.ofLength 0 6) ∈
      (read .flat indentedText).warnings := by
    decide +kernel
  exact ⟨hmem, marksLines_of_mem_warnings .flat indentedText _ hmem⟩

end SequenceXmi.Mermaid
