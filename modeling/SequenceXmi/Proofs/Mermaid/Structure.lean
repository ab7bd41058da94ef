import SequenceXmi.Proofs.Mermaid.Appending
import SequenceXmi.Proofs.Mermaid.Brackets
import SequenceXmi.Proofs.Mermaid.RoundTrip

/-! # Warnings about fragments

Reading warns about a fragment exactly where a bracket is unbalanced: `Followed` says for some lines
that the open fragments are the open brackets, and that the warnings so far are those about
unbalanced brackets. Lines that are no brackets change neither side, and a bracket adds the same to
both (`Followed.other`, `Followed.opening`, `Followed.closing`).

Main result: `read_warnsOfBrackets`, which also counts fragments, ends and warnings. -/

namespace SequenceXmi.Mermaid

open Text
open Statement (isOpening isClosing)

/-! ## Places of warnings -/

namespace Warning

/-- The places that explain what a warning is about. -/
def secondarySpans (w : Warning) : List Span := (w.marks.filter (!·.isPrimary)).map (·.span)

/-- The place that a warning is about, and those that explain it. -/
def places (w : Warning) : Option Span × List Span := (w.primarySpan?, w.secondarySpans)

end Warning

/-- The places of the warnings about one kind of trouble. -/
def Reading.placesAbout (t : Trouble) (r : Reading) : List (Option Span × List Span) :=
  (r.about t).map (·.places)

/-- The place of a bracket that is reported alone. -/
def Bracket.place (b : Bracket) : Option Span × List Span := (some b.line.span, [])

/-- The place of an opening that closes a fragment, with that of the opening of this fragment. -/
def replacementPlace (pair : Bracket × Bracket) : Option Span × List Span :=
  (some pair.2.line.span, [pair.1.line.span])

/-! ## Reports on brackets -/

section

variable {nesting : Nesting} {opened : List OpenFragment} {line : Line} {st : Statement}

theorem report?_of_statement? (h : statement? line = some st) :
    report? nesting opened line = st.report? nesting opened line.span := by
  obtain ⟨hline, hst⟩ := statement?_eq_some.mp h
  unfold report?
  rw [hline, hst]
  rfl

/-- A line that is no bracket is left out if it is reported at all. -/
theorem filter_isAbout_report?_of_no_bracket {t : Trouble} (ht : t.isSkippedLine = false)
    (h : Bracket.ofLine? line = none) :
    (report? nesting opened line).toList.filter (·.isAbout t) = [] := by
  cases hst : statement? line with
  | some st =>
    have hnone : st.report? nesting opened line.span = none := by
      have hnot := Bracket.not_opensOrEnds h hst
      cases st with
      | opening => exact absurd (.inl rfl) hnot
      | closing => exact absurd (.inr rfl) hnot
      | header | participant | message | note => rfl
    rw [report?_of_statement? hst, hnone]
    rfl
  | none =>
    unfold report?
    rcases statement?_eq_none.mp hst with hline | ⟨u, herror⟩
    · rw [if_pos hline]
      rfl
    · have hu := isSkippedLine_of_ofLine_eq_error herror
      rw [herror]
      split
      · rfl
      · simp [isAbout_skippedLine hu ht]

end

namespace Progress

/-- The places of the warnings so far about one kind of trouble. -/
def placesAbout (t : Trouble) (p : Progress) : List (Option Span × List Span) :=
  (p.warnings.filter (·.isAbout t)).map (·.places)

theorem placesAbout_step (t : Trouble) (nesting : Nesting) (p : Progress) (line : Line) :
    (p.step nesting line).placesAbout t = p.placesAbout t ++
      ((report? nesting p.opened line).toList.filter (·.isAbout t)).map (·.places) := by
  unfold placesAbout
  rw [warnings_step, List.filter_append, List.map_append]

/-- A line that is no bracket leaves the open fragments. -/
theorem opened_step_of_no_bracket {nesting : Nesting} {p : Progress} {line : Line}
    (h : Bracket.ofLine? line = none) :
    (p.step nesting line).opened = p.opened := by
  cases hst : statement? line with
  | some st =>
    have hnot := Bracket.not_opensOrEnds h hst
    rw [step_of_statement? hst]
    cases st with
    | opening => exact absurd (.inl rfl) hnot
    | closing => exact absurd (.inr rfl) hnot
    | header | participant => rfl
    | message | note => exact opened_send p _
  | none =>
    unfold step
    rcases statement?_eq_none.mp hst with hline | ⟨t, herror⟩
    · rw [if_pos hline]
    · rw [herror]
      split <;> rfl

theorem opened_openFragment (nesting : Nesting) (p : Progress) (operator : Operator)
    (guard : String) (span : Span) :
    (p.openFragment nesting operator guard span).opened.map (·.span) =
      span :: match nesting with
        | .flat => (p.opened.map (·.span)).tail
        | .stacked => p.opened.map (·.span) := by
  unfold openFragment
  cases nesting with
  | stacked => rfl
  | flat =>
    cases hp : p.opened with
    | nil => simp [push, hp]
    | cons previous outer => rfl

theorem opened_closeFragment (p : Progress) (span : Span) :
    (p.closeFragment span).opened = p.opened.tail := by
  unfold closeFragment
  cases hp : p.opened with
  | nil => exact hp
  | cons o outer => rfl

end Progress

/-! ## Reading follows the brackets -/

/-- The brackets of the lines that have been read decide which fragments are open, and what has been
reported about fragments. -/
structure Followed (nesting : Nesting) (bs : List Bracket) (p : Progress) : Prop where
  opened : p.opened.map (·.span) = (openBrackets nesting bs).map (·.line.span)
  unmatched : p.placesAbout .unmatchedEnd = (unmatchedEnds nesting bs).map (·.place)
  replaced : p.placesAbout .implicitlyClosed = (replacements nesting bs).map replacementPlace

namespace Followed

variable {nesting : Nesting} {bs : List Bracket} {p : Progress} {line : Line} {b : Bracket}

theorem start (nesting : Nesting) : Followed nesting [] .start := by
  refine ⟨?_, rfl, ?_⟩ <;> cases nesting <;> rfl

/-- Either nothing is open, or the innermost open fragment has the line of the innermost open
bracket. -/
theorem opened_cases (h : Followed nesting bs p) :
    (p.opened = [] ∧ openBrackets nesting bs = []) ∨
      ∃ o outer first rest, p.opened = o :: outer ∧ openBrackets nesting bs = first :: rest ∧
        o.span = first.line.span := by
  have hopened := h.opened
  cases hp : p.opened with
  | nil =>
    rw [hp, List.map_nil, eq_comm, List.map_eq_nil_iff] at hopened
    exact .inl ⟨rfl, hopened⟩
  | cons o outer =>
    rw [hp, List.map_cons, eq_comm, List.map_eq_cons_iff] at hopened
    obtain ⟨first, rest, hstack, hspan, -⟩ := hopened
    exact .inr ⟨o, outer, first, rest, rfl, hstack, hspan.symm⟩

/-- A line that is no bracket. -/
theorem other (h : Followed nesting bs p) (hline : Bracket.ofLine? line = none) :
    Followed nesting bs (p.step nesting line) := by
  have hnone {t : Trouble} (ht : t.isSkippedLine = false) :
      (p.step nesting line).placesAbout t = p.placesAbout t := by
    rw [Progress.placesAbout_step, filter_isAbout_report?_of_no_bracket ht hline]
    simp
  refine ⟨?_, ?_, ?_⟩
  · rw [Progress.opened_step_of_no_bracket hline]
    exact h.opened
  · rw [hnone rfl]
    exact h.unmatched
  · rw [hnone rfl]
    exact h.replaced

/-- An opening. With flat nesting it is reported with the opening of the fragment that it closes. -/
theorem opening (h : Followed nesting bs p) {operator : Operator} {guard : String}
    (hline : statement? b.line = some (.opening operator guard)) (hopens : b.opens) :
    Followed nesting (bs ++ [b]) (p.step nesting b.line) := by
  have hends : b.ends = false := Bracket.ends_of_opens hopens
  refine ⟨?_, ?_, ?_⟩
  · rw [step_of_statement? hline, openBrackets_concat, if_pos hopens, Progress.apply,
      Progress.opened_openFragment, h.opened]
    cases nesting <;> simp
  · rw [Progress.placesAbout_step, report?_of_statement? hline, unmatchedEnds_concat, hends,
      h.unmatched]
    -- An opening is not reported as an end.
    cases nesting with
    | stacked => simp [Statement.report?]
    | flat =>
      cases p.opened with
      | nil => simp [Statement.report?]
      | cons previous outer =>
        have hnot : (Warning.implicitlyClosed operator b.line.span previous.span).isAbout
            .unmatchedEnd = false := rfl
        simp [Statement.report?, hnot]
  · rw [Progress.placesAbout_step, report?_of_statement? hline, h.replaced]
    cases nesting with
    | stacked => simp [Statement.report?, replacements]
    | flat =>
      rw [replacements_flat_concat, if_pos hopens, List.map_append]
      rcases h.opened_cases with ⟨hp, hstack⟩ | ⟨o, outer, first, rest, hp, hstack, hspan⟩
      · rw [hp, hstack]
        rfl
      · have hone : (openBrackets .flat bs).length ≤ 1 := length_openBrackets_flat
        rw [hstack, List.length_cons] at hone
        have hrest : rest = [] := List.eq_nil_of_length_eq_zero (by omega)
        rw [hp, hstack, hrest, Statement.report?, hspan]
        rfl

/-- An end. It is reported if no fragment is open. -/
theorem closing (h : Followed nesting bs p) (hline : statement? b.line = some .closing)
    (hopens : b.opens = false) : Followed nesting (bs ++ [b]) (p.step nesting b.line) := by
  have hends : b.ends := Bracket.ends_of_not_opens hopens
  refine ⟨?_, ?_, ?_⟩
  · rw [step_of_statement? hline, openBrackets_concat, hopens, Progress.apply,
      Progress.opened_closeFragment, List.map_tail, h.opened]
    simp
  · rw [Progress.placesAbout_step, report?_of_statement? hline, unmatchedEnds_concat, hends,
      h.unmatched, List.map_append]
    rcases h.opened_cases with ⟨hp, hstack⟩ | ⟨o, outer, first, rest, hp, hstack, -⟩
    · rw [hp, hstack]
      rfl
    · rw [hp, hstack]
      rfl
  · rw [Progress.placesAbout_step, report?_of_statement? hline,
      replacements_concat_of_not_opens hopens, h.replaced]
    cases p.opened with
    | nil => exact List.append_nil _
    | cons o outer => exact List.append_nil _

/-- What one line preserves. -/
theorem step (h : Followed nesting bs p) (line : Line) :
    Followed nesting (bs ++ (Bracket.ofLine? line).toList) (p.step nesting line) := by
  rcases Bracket.ofLine?_cases line with
    hnone | ⟨b, operator, guard, hb, rfl, hopens, hst⟩ | ⟨b, hb, rfl, hopens, hst⟩
  · rw [hnone, Option.toList_none, List.append_nil]
    exact h.other hnone
  · rw [hb]
    exact h.opening hst hopens
  · rw [hb]
    exact h.closing hst hopens

/-- What all lines preserve. -/
theorem foldl_step (nesting : Nesting) (ls : List Line) :
    Followed nesting (ls.filterMap Bracket.ofLine?) (ls.foldl (Progress.step nesting) .start) := by
  induction ls using List.reverseRecOn with
  | nil => exact start nesting
  | append_singleton ls line ih =>
    rw [List.foldl_append, filterMap_concat]
    exact ih.step line

end Followed

/-! ## Fragments and openings -/

theorem rank_length (ss : List Statement) : rank ss ss.length = ss.countP isOpening := by
  induction ss using List.reverseRecOn with
  | nil => rfl
  | append_singleton ss st ih =>
    have hlast : rank (ss ++ [st]) (ss.length + 1) =
        rank (ss ++ [st]) ss.length + if isOpening st then 1 else 0 := by
      simp [rank, List.range_succ, List.countP_append]
    rw [List.length_append, List.length_singleton, hlast, rank_concat_of_le (Nat.le_refl _), ih,
      List.countP_append]
    simp [List.countP_singleton]

/-- Every opening adds a fragment, and nothing else does. -/
theorem length_fragments_read (nesting : Nesting) (source : String) :
    (read nesting source).diagram.fragments.length = (accepted source).countP isOpening := by
  rw [diagram_read]
  exact length_fragmentsOf.trans (rank_length _)

/-- The openings among all statements are those among the brackets. -/
theorem countP_opens_brackets (source : String) :
    (brackets source).countP (·.opens) = (accepted source).countP isOpening := by
  unfold brackets accepted
  induction lines source with
  | nil => rfl
  | cons line ls ih =>
    rcases Bracket.ofLine?_cases line with
      hnone | ⟨b, operator, guard, hb, -, hopens, hst⟩ | ⟨b, hb, -, hopens, hst⟩
    · rw [List.filterMap_cons_none hnone, ih]
      cases hline : statement? line with
      | none => rw [List.filterMap_cons_none hline]
      | some st =>
        have hnot : ¬ isOpening st = true := fun h =>
          Bracket.not_opensOrEnds hnone hline (.inl h)
        rw [List.filterMap_cons_some hline, List.countP_cons_of_neg hnot]
    · rw [List.filterMap_cons_some hb, List.filterMap_cons_some hst,
        List.countP_cons_of_pos hopens, List.countP_cons_of_pos rfl, ih]
    · rw [List.filterMap_cons_some hb, List.filterMap_cons_some hst,
        List.countP_cons_of_neg (by simp [hopens]),
        List.countP_cons_of_neg (by simp [isOpening]), ih]

/-! ## The end of the text -/

/-- The warnings about open fragments are about the openings that nothing ends. -/
theorem placesAbout_unclosed_read (nesting : Nesting) (source : String) :
    (read nesting source).placesAbout .unclosedFragment =
      (unclosedOpenings nesting (brackets source)).map (·.place) := by
  let p := (lines source).foldl (Progress.step nesting) .start
  have hfollowed : Followed nesting (brackets source) p := Followed.foldl_step nesting _
  have hreport : ∀ o ∈ p.opened.reverse,
      (p.unclosed? o).map (·.places) = some (some o.span, []) := by
    intro o ho
    have hlt : o.index < p.fragments.length :=
      (Routed.foldl_step nesting (lines source)).index_lt (List.mem_reverse.mp ho)
    rw [Progress.unclosed?, List.getElem?_eq_getElem hlt]
    rfl
  unfold Reading.placesAbout
  rw [about_unclosed_read, List.map_filterMap]
  show p.opened.reverse.filterMap (fun o => (p.unclosed? o).map (·.places)) = _
  rw [List.filterMap_congr hreport, unclosedOpenings_eq, List.map_reverse]
  have hspans := congrArg (List.map fun span => ((some span : Option Span), ([] : List Span)))
    hfollowed.opened
  rw [List.map_map, List.map_map] at hspans
  rw [List.filterMap_reverse]
  refine congrArg List.reverse (Eq.trans ?_ hspans)
  exact congrFun (List.filterMap_eq_map (f := fun o : OpenFragment =>
    ((some o.span : Option Span), ([] : List Span)))) p.opened

/-- The warnings of any other kind are those of the lines. -/
theorem placesAbout_read (nesting : Nesting) (source : String) {t : Trouble}
    (ht : t ≠ .unclosedFragment) :
    (read nesting source).placesAbout t =
      ((lines source).foldl (Progress.step nesting) .start).placesAbout t := by
  unfold Reading.placesAbout read
  rw [Progress.about_finish _ ht]
  rfl

/-- The warnings about ends are about those that have no fragment to end. -/
theorem placesAbout_unmatched_read (nesting : Nesting) (source : String) :
    (read nesting source).placesAbout .unmatchedEnd =
      (unmatchedEnds nesting (brackets source)).map (·.place) := by
  rw [placesAbout_read nesting source (by decide)]
  exact (Followed.foldl_step nesting (lines source)).unmatched

/-- The warnings about closed fragments are about the openings that close them. -/
theorem placesAbout_replaced_read (nesting : Nesting) (source : String) :
    (read nesting source).placesAbout .implicitlyClosed =
      (replacements nesting (brackets source)).map replacementPlace := by
  rw [placesAbout_read nesting source (by decide)]
  exact (Followed.foldl_step nesting (lines source)).replaced

/-! ## Reading -/

/-- What a reading of a text says about the brackets of the text. -/
structure WarnsOfBrackets (nesting : Nesting) (source : String) (r : Reading) : Prop where
  /-- The ends that have no fragment to end are reported, and no others. -/
  unmatched : r.placesAbout .unmatchedEnd =
    (unmatchedEnds nesting (brackets source)).map fun b => (some b.line.span, [])
  /-- The openings whose fragments are open to the end are reported, in order. -/
  unclosed : r.placesAbout .unclosedFragment =
    (unclosedOpenings nesting (brackets source)).map fun b => (some b.line.span, [])
  /-- The openings that close a fragment are reported, each with the opening of this fragment. -/
  replaced : r.placesAbout .implicitlyClosed =
    (replacements nesting (brackets source)).map fun (previous, b) =>
      (some b.line.span, [previous.line.span])
  /-- Every fragment is ended, left open, or closed by another one. -/
  balance : r.diagram.fragments.length + (r.about .unmatchedEnd).length =
    (brackets source).countP (·.ends) + (r.about .unclosedFragment).length +
      (r.about .implicitlyClosed).length

/-- Reading reports exactly the unbalanced brackets of a text, with either way of nesting. -/
theorem read_warnsOfBrackets (nesting : Nesting) (source : String) :
    WarnsOfBrackets nesting source (read nesting source) := by
  have hunmatched := placesAbout_unmatched_read nesting source
  have hreplaced := placesAbout_replaced_read nesting source
  have hunclosed := placesAbout_unclosed_read nesting source
  refine ⟨hunmatched, hunclosed, hreplaced, ?_⟩
  -- There are as many warnings of a kind as there are brackets to warn about.
  have hlength := congrArg List.length hunmatched
  have hlength' := congrArg List.length hunclosed
  have hlength'' := congrArg List.length hreplaced
  simp only [Reading.placesAbout, List.length_map] at hlength hlength' hlength''
  have hcount := count_brackets nesting (brackets source)
  rw [countP_opens_brackets, ← length_fragments_read nesting] at hcount
  omega

/-- Of three ends in a row, how many have a fragment depends on the way of nesting. -/
example :
    let bs := brackets "alt a\nloop b\nend\nend\nend\nalt c"
    (unmatchedEnds .flat bs).map (·.line.number) = [4, 5] ∧
      (unmatchedEnds .stacked bs).map (·.line.number) = [5] ∧
      (unclosedOpenings .stacked bs).map (·.line.number) = [6] := by
  decide +kernel

end SequenceXmi.Mermaid
