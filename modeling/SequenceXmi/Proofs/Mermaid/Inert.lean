import SequenceXmi.Proofs.Mermaid.Reports
import SequenceXmi.Proofs.Mermaid.Routing
import SequenceXmi.Proofs.Mermaid.Spans
import SequenceXmi.Proofs.Text.Keeping

/-! # Lines that say nothing

A blank line, a comment, a header, or a line that is left out adds nothing to the diagram, wherever
it stands (`IsInert`). Such lines can be deleted: what is read is the same, up to the places of
warnings, and no warning is lost but those about the deleted lines themselves.

The two readers are compared in two steps. With the lines still in their old places, both have read
the same but for the lines left out (`withoutSkipped`). Then the lines move together, which changes
only places (`unplaced`).

Main results: `foldl_step_filter` for the first step, `foldl_step_unplaced` for the second one,
`undisturbed_keepLines` for whole texts. -/

namespace SequenceXmi.Mermaid

open Text
open Text.Line (MovedBy)

/-! ## Lines without a statement -/

/-- A line that is blank, a comment, a header, or left out. -/
inductive IsInert (line : Line) : Prop where
  | ignorable (h : line.isIgnorable) : IsInert line
  | header (h : Statement.ofLine line.text = .ok .header) : IsInert line
  | skipped (t : Trouble) (h : Statement.ofLine line.text = .error t) : IsInert line

theorem isInert_iff {line : Line} :
    IsInert line ↔ statement? line = none ∨ statement? line = some .header := by
  rw [statement?_eq_none, statement?_eq_some]
  constructor
  · intro h
    cases h with
    | ignorable h => exact .inl (.inl h)
    | header h =>
      by_cases hline : line.isIgnorable
      · exact .inl (.inl hline)
      · exact .inr ⟨by simpa using hline, h⟩
    | skipped t h => exact .inl (.inr ⟨t, h⟩)
  · rintro ((h | ⟨t, h⟩) | ⟨-, h⟩)
    · exact .ignorable h
    · exact .skipped t h
    · exact .header h

instance (line : Line) : Decidable (IsInert line) := decidable_of_iff _ isInert_iff.symm

/-- The warning about a line that is left out. -/
def skipped? (line : Line) : Option Warning :=
  if line.isIgnorable then none
  else match Statement.ofLine line.text with
    | .ok _ => none
    | .error t => some (.skippedLine t line)

/-- A line is blank or a comment, or it is a statement, or it is left out. -/
theorem line_cases (line : Line) :
    (line.isIgnorable ∧ statement? line = none ∧ skipped? line = none) ∨
      (∃ st, line.isIgnorable = false ∧ Statement.ofLine line.text = .ok st ∧
        statement? line = some st ∧ skipped? line = none) ∨
      ∃ t, line.isIgnorable = false ∧ Statement.ofLine line.text = .error t ∧
        statement? line = none ∧ skipped? line = some (.skippedLine t line) := by
  unfold statement? skipped?
  by_cases hline : line.isIgnorable
  · exact .inl ⟨hline, if_pos hline, if_pos hline⟩
  · rw [if_neg hline, if_neg hline]
    have hspoken : line.isIgnorable = false := by simpa using hline
    cases hst : Statement.ofLine line.text with
    | ok st => exact .inr (.inl ⟨st, hspoken, rfl, rfl, rfl⟩)
    | error t => exact .inr (.inr ⟨t, hspoken, rfl, rfl, rfl⟩)

/-- Whether a warning is about fragments and their ends, as against a line that is left out. -/
def Warning.isStructural (w : Warning) : Bool := w.trouble.any fun t => !t.isSkippedLine

/-- The warnings about fragments and their ends. -/
def Reading.structureWarnings (r : Reading) : List Warning := r.warnings.filter (·.isStructural)

/-! ## Lines that are left out -/

theorem isSkippedLine_skippedLine (t : Trouble) (line : Line) :
    (Warning.skippedLine t line).isSkippedLine = t.isSkippedLine := rfl

theorem isStructural_skippedLine (t : Trouble) (line : Line) :
    (Warning.skippedLine t line).isStructural = !t.isSkippedLine := rfl

/-- Whether a line is left out does not depend on the open fragments. -/
theorem filter_isSkippedLine_report? (nesting : Nesting) (opened : List OpenFragment)
    (line : Line) :
    (report? nesting opened line).toList.filter (·.isSkippedLine) = (skipped? line).toList := by
  unfold report? skipped?
  by_cases hline : line.isIgnorable
  · rw [if_pos hline, if_pos hline]
    rfl
  · rw [if_neg hline, if_neg hline]
    cases hst : Statement.ofLine line.text with
    | error t =>
      have ht : t.isSkippedLine := isSkippedLine_of_ofLine_eq_error hst
      simp [isSkippedLine_skippedLine, ht]
    | ok st =>
      cases st with
      | opening operator guard =>
        cases nesting with
        | stacked => rfl
        | flat => cases opened <;> rfl
      | closing => cases opened <;> rfl
      | header | participant | message | note => rfl

namespace Progress

/-- Every line that is left out is reported, in the order of the lines. -/
theorem filter_isSkippedLine_foldl (nesting : Nesting) (ls : List Line) (p : Progress) :
    (ls.foldl (step nesting) p).warnings.filter (·.isSkippedLine) =
      p.warnings.filter (·.isSkippedLine) ++ ls.filterMap skipped? := by
  induction ls generalizing p with
  | nil => simp
  | cons line ls ih =>
    rw [List.foldl_cons, ih, warnings_step, List.filter_append, filter_isSkippedLine_report?,
      List.append_assoc, List.filterMap_cons]
    cases skipped? line <;> rfl

end Progress

/-- The warnings about lines that are left out, one for each of them. -/
theorem skippedLines_read (nesting : Nesting) (source : String) :
    (read nesting source).skippedLines = (lines source).filterMap skipped? := by
  unfold read
  rw [Progress.skippedLines_finish, Progress.filter_isSkippedLine_foldl]
  rfl

/-! ## Without the lines left out -/

namespace Progress

/-- What has been read, without the warnings about lines that are left out. -/
def withoutSkipped (p : Progress) : Progress :=
  { p with warnings := p.warnings.filter (·.isStructural) }

variable (p : Progress)

theorem withoutSkipped_warn_of_structural {w : Warning} (h : w.isStructural) :
    (p.warn w).withoutSkipped = p.withoutSkipped.warn w := by
  simp [warn, withoutSkipped, h]

theorem withoutSkipped_warn_of_not {w : Warning} (h : w.isStructural = false) :
    (p.warn w).withoutSkipped = p.withoutSkipped := by
  simp [warn, withoutSkipped, h]

theorem withoutSkipped_send (m : Message) :
    (p.send m).withoutSkipped = p.withoutSkipped.send m := by
  unfold send withoutSkipped
  cases p.opened <;> rfl

theorem withoutSkipped_openFragment (nesting : Nesting) (operator : Operator) (guard : String)
    (span : Span) :
    (p.openFragment nesting operator guard span).withoutSkipped =
      p.withoutSkipped.openFragment nesting operator guard span := by
  cases nesting with
  | stacked => rfl
  | flat =>
    cases hp : p.opened with
    | nil =>
      have hopened : p.withoutSkipped.opened = [] := hp
      simp only [openFragment, hp, hopened]
      rfl
    | cons previous outer =>
      have hopened : p.withoutSkipped.opened = previous :: outer := hp
      -- The warning is about the fragments, and stays.
      have hwarn := withoutSkipped_warn_of_structural { p with opened := outer }
        (w := .implicitlyClosed operator span previous.span) rfl
      simp only [openFragment, hp, hopened]
      exact congrArg (·.push operator guard span) hwarn

theorem withoutSkipped_closeFragment (span : Span) :
    (p.closeFragment span).withoutSkipped = p.withoutSkipped.closeFragment span := by
  cases hp : p.opened with
  | nil =>
    have hopened : p.withoutSkipped.opened = [] := hp
    simp only [closeFragment, hp, hopened]
    exact withoutSkipped_warn_of_structural p rfl
  | cons o outer =>
    have hopened : p.withoutSkipped.opened = o :: outer := hp
    simp only [closeFragment, hp, hopened]
    rfl

/-- Whatever a line does, readers that differ in lines left out go on to differ only in them. -/
theorem simulation_withoutSkipped (nesting : Nesting) :
    Simulation nesting nesting id (fun p q => p.withoutSkipped = q.withoutSkipped) where
  skip := by
    intro p q h t line moved hmoved
    rw [skippedLine_of_movedBy_id t hmoved]
    by_cases ht : (Warning.skippedLine t line).isStructural
    · rw [withoutSkipped_warn_of_structural _ ht, withoutSkipped_warn_of_structural _ ht, h]
    · have hnot : (Warning.skippedLine t line).isStructural = false := by simpa using ht
      rw [withoutSkipped_warn_of_not _ hnot, withoutSkipped_warn_of_not _ hnot, h]
  declare := by
    intro p q h l
    exact congrArg (·.declare l) h
  send := by
    intro p q h m
    rw [withoutSkipped_send, withoutSkipped_send, h]
  openFragment := by
    intro p q h operator guard span
    show _ = (q.openFragment nesting operator guard span).withoutSkipped
    rw [withoutSkipped_openFragment, withoutSkipped_openFragment, h]
  closeFragment := by
    intro p q h span
    show _ = (q.closeFragment span).withoutSkipped
    rw [withoutSkipped_closeFragment, withoutSkipped_closeFragment, h]

/-- A line that says nothing changes nothing else. -/
theorem withoutSkipped_step_of_isInert {line : Line} (h : IsInert line) (nesting : Nesting) :
    (p.step nesting line).withoutSkipped = p.withoutSkipped := by
  unfold step
  by_cases hline : line.isIgnorable
  · rw [if_pos hline]
  · rw [if_neg hline]
    cases h with
    | ignorable hignorable => exact absurd hignorable hline
    | header hst => rw [hst]; rfl
    | skipped t hst =>
      have ht : t.isSkippedLine := isSkippedLine_of_ofLine_eq_error hst
      rw [hst]
      apply withoutSkipped_warn_of_not
      rw [isStructural_skippedLine, ht]
      rfl

/-- Lines that say nothing can be passed over, wherever they stand. -/
theorem foldl_step_filter {keep : Line → Bool} {ls : List Line}
    (h : ∀ line ∈ ls, keep line = false → IsInert line) (nesting : Nesting) {p q : Progress}
    (hsame : p.withoutSkipped = q.withoutSkipped) :
    (ls.foldl (step nesting) p).withoutSkipped =
      ((ls.filter keep).foldl (step nesting) q).withoutSkipped := by
  induction ls generalizing p q with
  | nil => exact hsame
  | cons line ls ih =>
    have hls := fun l hl => h l (List.mem_cons_of_mem line hl)
    rw [List.foldl_cons, List.filter_cons]
    by_cases hkeep : keep line
    · rw [if_pos hkeep, List.foldl_cons]
      exact ih hls ((simulation_withoutSkipped nesting).step hsame ⟨rfl, rfl⟩)
    · rw [if_neg hkeep]
      -- Only the reader of all lines meets this one.
      have hline := h line List.mem_cons_self (by simpa using hkeep)
      exact ih hls ((withoutSkipped_step_of_isInert p hline nesting).trans hsame)

theorem finish_withoutSkipped :
    p.withoutSkipped.finish =
      { p.finish with warnings := p.finish.structureWarnings } := by
  have hunclosed : (p.opened.reverse.filterMap p.unclosed?).filter (·.isStructural) =
      p.opened.reverse.filterMap p.unclosed? := by
    rw [List.filter_eq_self]
    intro w hw
    obtain ⟨operator, span, rfl⟩ := p.exists_of_unclosed? hw
    rfl
  unfold Reading.structureWarnings finish
  rw [List.filter_append, hunclosed]
  rfl

end Progress

/-! ## Without places -/

/-- The warning without its places: what it is about, in which words, and what to do. -/
def Warning.unplaced (w : Warning) : Warning := w.mapSpans fun _ => default

/-- The warnings of a reading, their places apart. -/
def Reading.unplaced (r : Reading) : Reading := r.mapSpans fun _ => default

namespace Progress

/-- Readers that find the same texts in their lines differ only in places. -/
theorem foldl_step_unplaced {ls ks : List Line} (h : ls.map (·.text) = ks.map (·.text))
    (nesting : Nesting) :
    (ls.foldl (step nesting) start).mapSpans (fun _ => default) =
      (ks.foldl (step nesting) start).mapSpans fun _ => default := by
  let lineAt (text : List Char) : Line := ⟨0, text, default⟩
  have hmoved (ls : List Line) :
      List.Forall₂ (MovedBy fun _ => default) ls ((ls.map (·.text)).map lineAt) := by
    rw [List.map_map, List.forall₂_map_right_iff]
    exact List.forall₂_same.mpr fun _ _ => ⟨rfl, rfl⟩
  -- Both are the reading of the same lines without places.
  rw [foldl_step_mapSpans _ _ (hmoved ls), foldl_step_mapSpans _ _ (hmoved ks), h]

/-- The end of a text adds nothing but places to what differs in places only. -/
theorem finish_unplaced {p q : Progress}
    (h : p.mapSpans (fun _ => default) = q.mapSpans fun _ => default) :
    p.finish.unplaced = q.finish.unplaced := by
  unfold Reading.unplaced
  rw [← finish_mapSpans, ← finish_mapSpans, h]

end Progress

/-- Places are in warnings only. -/
theorem Reading.diagram_eq_of_unplaced {r r' : Reading} (h : r.unplaced = r'.unplaced) :
    r.diagram = r'.diagram := by
  have hdiagram := congrArg Reading.diagram h
  exact hdiagram

theorem Reading.map_unplaced_warnings {r r' : Reading} (h : r.unplaced = r'.unplaced) :
    r.warnings.map (·.unplaced) = r'.warnings.map (·.unplaced) := by
  have hwarnings := congrArg Reading.warnings h
  exact hwarnings

/-- Readings that differ only in places have warnings of every kind that differ only in places. -/
theorem Reading.map_unplaced_filter {r r' : Reading} (h : r.unplaced = r'.unplaced)
    {q : Warning → Bool} (hq : ∀ w, q w.unplaced = q w) :
    (r.warnings.filter q).map (·.unplaced) = (r'.warnings.filter q).map (·.unplaced) := by
  have hfilter (ws : List Warning) :
      (ws.filter q).map (·.unplaced) = (ws.map (·.unplaced)).filter q := by
    rw [List.filter_map]
    exact congrArg _ (List.filter_congr fun w _ => (hq w).symm)
  rw [hfilter, hfilter, map_unplaced_warnings h]

/-! ## Texts without these lines -/

/-- How a text is read of which only some lines are kept, as against how the whole text is read. -/
structure Undisturbed (kept : List Line) (whole rest : Reading) : Prop where
  /-- The same diagram. -/
  diagram : rest.diagram = whole.diagram
  /-- The same warnings about fragments, perhaps in other places. -/
  structureWarnings : rest.structureWarnings.map (·.unplaced) =
    whole.structureWarnings.map (·.unplaced)
  /-- Of the lines that are left out, the kept ones are still reported, perhaps in other places. -/
  skippedLines : rest.skippedLines.map (·.unplaced) = (kept.filterMap skipped?).map (·.unplaced)

/-- What is read of the kept lines, in their old places and in their new ones. -/
theorem undisturbed_keepLines (nesting : Nesting) {source : String} {keep : Nat → Bool}
    (h : ∀ line ∈ lines source, keep line.number = false → IsInert line) :
    Undisturbed ((lines source).filter fun line => keep line.number) (read nesting source)
      (read nesting (keepLines keep source)) := by
  let kept := (lines source).filter fun line => keep line.number
  let p := (lines source).foldl (Progress.step nesting) .start
  let q := kept.foldl (Progress.step nesting) .start
  have hfilter : p.withoutSkipped = q.withoutSkipped := Progress.foldl_step_filter h nesting rfl
  have hfinish : { p.finish with warnings := p.finish.structureWarnings } =
      { q.finish with warnings := q.finish.structureWarnings } := by
    rw [← Progress.finish_withoutSkipped, ← Progress.finish_withoutSkipped, hfilter]
  have hplaces : (read nesting (keepLines keep source)).unplaced = q.finish.unplaced :=
    Progress.finish_unplaced
      (Progress.foldl_step_unplaced (map_text_lines_keepLines keep source) nesting)
  have hskipped : q.finish.skippedLines = kept.filterMap skipped? := by
    rw [Progress.skippedLines_finish, Progress.filter_isSkippedLine_foldl]
    rfl
  refine ⟨?_, ?_, ?_⟩
  · exact (Reading.diagram_eq_of_unplaced hplaces).trans (congrArg Reading.diagram hfinish).symm
  · have hwarnings := congrArg Reading.warnings hfinish
    exact (Reading.map_unplaced_filter hplaces fun _ => rfl).trans
      (congrArg (List.map Warning.unplaced) hwarnings).symm
  · rw [← hskipped]
    exact Reading.map_unplaced_filter hplaces fun _ => rfl

end SequenceXmi.Mermaid
