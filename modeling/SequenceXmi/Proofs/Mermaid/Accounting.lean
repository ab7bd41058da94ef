import Mathlib.Data.List.Nodup
import SequenceXmi.Proofs.Mermaid.Comparison
import SequenceXmi.Proofs.Mermaid.Inert
import SequenceXmi.Proofs.Mermaid.Structure

/-! # Every line counts once

A line that is neither blank nor a comment is a header or an end, or one part of the diagram comes
from it, or it is left out and reported (`line_cases`). So the parts of the diagram can be counted
against the lines: no line is lost, and none is taken twice.

Warnings come in the order of the lines that they are about. Those that are given while the lines
are read come first, no two of them about one line. Those about fragments that are open at the end
follow, again in order.

Main result: `read_accountsForLines`. -/

namespace SequenceXmi.Mermaid

open Text
open Statement (isOpening)

/-! ## Kinds of lines -/

/-- The lines of a text that are neither blank nor comments. -/
def spokenLines (source : String) : List Line := (lines source).filter (!·.isIgnorable)

/-- Whether a line is neither blank nor a comment, and no statement either. -/
def isRejected (line : Line) : Bool :=
  !line.isIgnorable && (Statement.ofLine line.text).toOption.isNone

/-! ## Rejected lines -/

/-- The warning says that the line is left out and why, and quotes it. -/
structure Rejects (line : Line) (w : Warning) : Prop where
  place : w.primarySpan? = some line.span
  trouble : ∃ t, Statement.ofLine line.text = .error t ∧ w.trouble = some t ∧
    w.message = t.description ++ " " ++ quoted (String.ofList line.text)

theorem rejects_skippedLine {t : Trouble} {line : Line}
    (h : Statement.ofLine line.text = .error t) : Rejects line (.skippedLine t line) :=
  ⟨rfl, t, h, rfl, rfl⟩

/-- There is one warning for each rejected line, in the order of the lines. -/
theorem forall₂_rejects (ls : List Line) :
    List.Forall₂ Rejects (ls.filter isRejected) (ls.filterMap skipped?) := by
  induction ls with
  | nil => exact .nil
  | cons line ls ih =>
    rcases line_cases line with
      ⟨hline, -, hnone⟩ | ⟨st, hline, hst, -, hnone⟩ | ⟨t, hline, hst, -, hsome⟩
    · have hkept : ¬ isRejected line := by simp [isRejected, hline]
      rw [List.filter_cons_of_neg hkept, List.filterMap_cons_none hnone]
      exact ih
    · have hkept : ¬ isRejected line := by simp [isRejected, hst, Except.toOption]
      rw [List.filter_cons_of_neg hkept, List.filterMap_cons_none hnone]
      exact ih
    · have hrejected : isRejected line := by simp [isRejected, hline, hst, Except.toOption]
      rw [List.filter_cons_of_pos hrejected, List.filterMap_cons_some hsome]
      exact .cons (rejects_skippedLine hst) ih

/-! ## Numbers of lines -/

/-- A line that is neither blank nor a comment is accepted or rejected. -/
theorem length_spoken (ls : List Line) :
    (ls.filter (!·.isIgnorable)).length =
      (ls.filterMap statement?).length + (ls.filterMap skipped?).length := by
  induction ls with
  | nil => rfl
  | cons line ls ih =>
    rcases line_cases line with
      ⟨hline, hnone, hnone'⟩ | ⟨st, hline, -, hsome, hnone⟩ | ⟨t, hline, -, hnone, hsome⟩
    · rw [List.filter_cons_of_neg (by simp [hline]), List.filterMap_cons_none hnone,
        List.filterMap_cons_none hnone', ih]
    · rw [List.filter_cons_of_pos (by simp [hline]), List.filterMap_cons_some hsome,
        List.filterMap_cons_none hnone, List.length_cons, List.length_cons, ih]
      omega
    · rw [List.filter_cons_of_pos (by simp [hline]), List.filterMap_cons_none hnone,
        List.filterMap_cons_some hsome, List.length_cons, List.length_cons, ih]
      omega

/-- A statement is a header or an end, or declares a lifeline, sends a message, or opens a fragment,
and no two of these. -/
theorem count_statement (st : Statement) :
    [st].count .header + st.lifeline?.toList.length + st.message?.toList.length +
      [st].countP isOpening + [st].count .closing = 1 := by
  cases st <;> rfl

theorem length_statements (ss : List Statement) :
    ss.length = ss.count .header + (ss.filterMap (·.lifeline?)).length +
      (ss.filterMap (·.message?)).length + ss.countP isOpening + ss.count .closing := by
  induction ss using List.reverseRecOn with
  | nil => rfl
  | append_singleton ss st ih =>
    have hone := count_statement st
    rw [filterMap_concat, filterMap_concat, List.count_append, List.count_append,
      List.countP_append]
    simp only [List.length_append, List.length_singleton]
    omega

/-! ## Warnings in order -/

/-- Every warning is about a place, and begins later than the one before it. -/
def InOrder (ws : List Warning) : Prop :=
  ∃ spans : List Span, ws.map (·.primarySpan?) = spans.map some ∧
    spans.Pairwise fun a b => a.start < b.start

/-- Warnings about some of the lines, in the order of the lines. -/
theorem InOrder.of_sublist {source : String} {ws : List Warning} {ls : List Line}
    (hls : ls.Sublist (lines source))
    (hplaces : ws.map (·.primarySpan?) = ls.map fun line => some line.span) : InOrder ws := by
  refine ⟨ls.map (·.span), by rw [hplaces, List.map_map]; rfl, List.pairwise_map.mpr ?_⟩
  refine ((pairwise_lines source).sublist hls).imp ?_
  intro l m hbetween
  have hle := l.span.start_le_stop
  omega

/-- No two warnings are about one place. -/
theorem InOrder.countP_le_one {ws : List Warning} (h : InOrder ws) (span : Span) :
    ws.countP (·.primarySpan? == some span) ≤ 1 := by
  obtain ⟨spans, hplaces, hstarts⟩ := h
  have hnodup : spans.Nodup := by
    refine hstarts.imp ?_
    rintro a b hlt rfl
    omega
  have hplacesNodup : (ws.map (·.primarySpan?)).Nodup := by
    rw [hplaces]
    exact hnodup.map fun _ _ => Option.some.inj
  have hcount := List.nodup_iff_count_le_one.mp hplacesNodup (some span)
  rwa [List.count, List.countP_map] at hcount

/-- A line is reported in its own place. -/
theorem primarySpan?_report? {nesting : Nesting} {opened : List OpenFragment} {line : Line}
    {w : Warning} (h : report? nesting opened line = some w) :
    w.primarySpan? = some line.span := by
  rcases report?_cases h with ⟨t, -, rfl⟩ | ⟨operator, previous, -, rfl⟩ | ⟨-, rfl⟩
  · rfl
  · rfl
  · rfl

/-- While lines are read each of them is reported at most once, in its turn. -/
theorem warnings_foldl_sublist (nesting : Nesting) (ls : List Line) :
    ((ls.foldl (Progress.step nesting) .start).warnings.map (·.primarySpan?)).Sublist
      (ls.map fun line => some line.span) := by
  induction ls using List.reverseRecOn with
  | nil => exact List.Sublist.refl _
  | append_singleton ls line ih =>
    rw [List.foldl_append, List.map_append]
    show (List.map _ (Progress.step nesting _ line).warnings).Sublist _
    rw [Progress.warnings_step, List.map_append]
    apply ih.append
    cases hw : report? nesting (ls.foldl (Progress.step nesting) .start).opened line with
    | none => exact List.nil_sublist _
    | some w =>
      show [w.primarySpan?].Sublist [some line.span]
      rw [primarySpan?_report? hw]

theorem inOrder_warnings_foldl (nesting : Nesting) (source : String) :
    InOrder ((lines source).foldl (Progress.step nesting) .start).warnings := by
  have hsublist := warnings_foldl_sublist nesting (lines source)
  obtain ⟨ls, hls, hplaces⟩ := List.sublist_map_iff.mp hsublist
  exact .of_sublist hls hplaces

/-- Open fragments are reported in the order in which they opened. -/
theorem inOrder_about_unclosed (nesting : Nesting) (source : String) :
    InOrder ((read nesting source).about .unclosedFragment) := by
  have hplaces := placesAbout_unclosed_read nesting source
  have hls : ((unclosedOpenings nesting (brackets source)).map (·.line)).Sublist
      ((brackets source).map (·.line)) := unclosedOpenings_sublist.map _
  refine .of_sublist (hls.trans (lines_brackets_sublist source)) ?_
  have hprimary := congrArg (List.map Prod.fst) hplaces
  rw [Reading.placesAbout, List.map_map, List.map_map] at hprimary
  rw [List.map_map]
  exact hprimary

/-! ## Reading -/

/-- A reading accounts for every line of a text. -/
structure AccountsForLines (source : String) (r : Reading) : Prop where
  /-- Every line that is rejected is reported, in order. -/
  rejected : List.Forall₂ Rejects ((lines source).filter isRejected) r.skippedLines
  /-- Every line that is neither blank nor a comment counts once. -/
  balance : (spokenLines source).length =
    (accepted source).count .header + r.diagram.lifelines.length + r.diagram.messageCount +
      r.diagram.fragments.length + (accepted source).count .closing + r.skippedLines.length
  /-- The warnings about open fragments come last. All others are before them, at most one about
  each line. Both are in the order of the lines. -/
  ordered : ∃ front back, r.warnings = front ++ back ∧
    (∀ w ∈ front, w.isAbout .unclosedFragment = false) ∧ InOrder front ∧
    (∀ line ∈ lines source, front.countP (·.primarySpan? == some line.span) ≤ 1) ∧
    (∀ w ∈ back, w.isAbout .unclosedFragment) ∧ InOrder back

/-- Reading accounts for every line of a text, with either way of nesting. -/
theorem read_accountsForLines (nesting : Nesting) (source : String) :
    AccountsForLines source (read nesting source) := by
  have hskipped := skippedLines_read nesting source
  refine ⟨?_, ?_, ?_⟩
  · rw [hskipped]
    exact forall₂_rejects (lines source)
  · have hlines := length_spoken (lines source)
    have hstatements := length_statements (accepted source)
    have hlifelines : (read nesting source).diagram.lifelines.length =
        ((accepted source).filterMap (·.lifeline?)).length := by
      rw [diagram_read]
      rfl
    rw [spokenLines, hlines, hskipped, messageCount_read, length_fragments_read, hlifelines,
      ← hstatements]
    rfl
  · let p := (lines source).foldl (Progress.step nesting) .start
    have hfront := inOrder_warnings_foldl nesting source
    have hback := inOrder_about_unclosed nesting source
    rw [about_unclosed_read] at hback
    refine ⟨p.warnings, p.opened.reverse.filterMap p.unclosed?, rfl, ?_, hfront, ?_, ?_, hback⟩
    · exact Progress.forall_warnings_foldl (fun _ _ _ => isAbout_unclosed_of_report?) (lines source)
    · exact fun line _ => hfront.countP_le_one line.span
    · intro w hw
      obtain ⟨operator, span, rfl⟩ := p.exists_of_unclosed? hw
      rfl

end SequenceXmi.Mermaid
