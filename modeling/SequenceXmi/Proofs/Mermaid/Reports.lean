import Mathlib.Data.List.Induction
import Mathlib.Tactic.SplitIfs
import SequenceXmi.Mermaid.Reading

/-! # What is reported

A line is reported at most once while it is read, and `report?` says what for: this depends on the
line and on the fragments that are open before it, and on nothing else. At the end of the text the
fragments that are still open are reported, and only then.

Main results: `warnings_step` for one line, `forall_warnings_foldl` for all lines, `about_finish`
and `about_unclosed_read` for the end of the text. -/

namespace SequenceXmi.Mermaid

open Text

/-! ## Kinds of warnings -/

/-- Whether a warning is about the given kind of trouble. -/
def Warning.isAbout (t : Trouble) (w : Warning) : Bool := w.trouble == some t

/-- The warnings about one kind of trouble. -/
def Reading.about (t : Trouble) (r : Reading) : List Warning := r.warnings.filter (·.isAbout t)

/-! ## The report on a line -/

/-- What a statement is reported for, where the given fragments are open. -/
def Statement.report? (nesting : Nesting) (opened : List OpenFragment) (span : Span) :
    Statement → Option Warning
  | .opening operator _ =>
    match nesting, opened with
    | .flat, previous :: _ => some (.implicitlyClosed operator span previous.span)
    | _, _ => none
  | .closing => if opened.isEmpty then some (.unmatchedEnd span) else none
  | .header | .participant .. | .message .. | .note .. => none

/-- What a line is reported for, where the given fragments are open. -/
def report? (nesting : Nesting) (opened : List OpenFragment) (line : Line) : Option Warning :=
  if line.isIgnorable then none
  else match Statement.ofLine line.text with
    | .ok st => st.report? nesting opened line.span
    | .error t => some (.skippedLine t line)

/-- Lines that are left out are in trouble of their own kinds. -/
theorem isSkippedLine_of_ofLine_eq_error {text : List Char} {t : Trouble}
    (h : Statement.ofLine text = .error t) : t.isSkippedLine := by
  have hread : ∀ {read? : Option Statement} {u : Trouble},
      read?.elim (.error u) .ok = (.error t : Except Trouble Statement) → u = t := by
    intro read? u hu
    cases read? with
    | none => exact Except.error.inj hu
    | some st => cases hu
  unfold Statement.ofLine at h
  split_ifs at h <;> (cases hread h; rfl)

section

variable {nesting : Nesting} {opened : List OpenFragment} {line : Line} {w : Warning}

/-- The reasons to report a line. -/
theorem report?_cases (h : report? nesting opened line = some w) :
    (∃ t, t.isSkippedLine ∧ w = .skippedLine t line) ∨
      (∃ operator previous, nesting = .flat ∧ w = .implicitlyClosed operator line.span previous) ∨
      (opened = [] ∧ w = .unmatchedEnd line.span) := by
  unfold report? at h
  split at h
  · cases h
  · cases hst : Statement.ofLine line.text with
    | error t =>
      simp only [hst] at h
      exact .inl ⟨t, isSkippedLine_of_ofLine_eq_error hst, (Option.some.inj h).symm⟩
    | ok st =>
      simp only [hst] at h
      cases st with
      | opening operator guard =>
        cases nesting with
        | stacked => cases h
        | flat =>
          cases opened with
          | nil => cases h
          | cons previous outer =>
            exact .inr (.inl ⟨operator, previous.span, rfl, (Option.some.inj h).symm⟩)
      | closing =>
        cases opened with
        | nil => exact .inr (.inr ⟨rfl, (Option.some.inj h).symm⟩)
        | cons o outer => cases h
      | header | participant | message | note => cases h

/-- A line that is left out is in no other trouble. -/
theorem isAbout_skippedLine {t u : Trouble} (ht : t.isSkippedLine) (hu : u.isSkippedLine = false) :
    (Warning.skippedLine t line).isAbout u = false := by
  show (some t == some u) = false
  have hne : t ≠ u := by
    rintro rfl
    rw [hu] at ht
    cases ht
  simpa using hne

/-- Open fragments are not reported before the end of the text. -/
theorem isAbout_unclosed_of_report? (h : report? nesting opened line = some w) :
    w.isAbout .unclosedFragment = false := by
  rcases report?_cases h with ⟨t, ht, rfl⟩ | ⟨operator, previous, -, rfl⟩ | ⟨-, rfl⟩
  · exact isAbout_skippedLine ht rfl
  · rfl
  · rfl

/-- With stacked nesting no fragment closes another one. -/
theorem isAbout_implicitlyClosed_of_report? (h : report? .stacked opened line = some w) :
    w.isAbout .implicitlyClosed = false := by
  rcases report?_cases h with ⟨t, ht, rfl⟩ | ⟨operator, previous, hnesting, -⟩ | ⟨-, rfl⟩
  · exact isAbout_skippedLine ht rfl
  · cases hnesting
  · rfl

end

/-! ## Warnings while lines are read -/

namespace Progress

theorem warnings_send (p : Progress) (m : Message) : (p.send m).warnings = p.warnings := by
  unfold send
  split <;> rfl

theorem warnings_apply (nesting : Nesting) (p : Progress) (span : Span) (st : Statement) :
    (p.apply nesting span st).warnings =
      p.warnings ++ (st.report? nesting p.opened span).toList := by
  cases st with
  | header => exact (List.append_nil _).symm
  | participant aliasName displayName => exact (List.append_nil _).symm
  | message sender receiver text => simp [apply, warnings_send, Statement.report?]
  | note target text => simp [apply, warnings_send, Statement.report?]
  | opening operator guard =>
    show (p.openFragment nesting operator guard span).warnings = _
    unfold openFragment
    cases nesting with
    | stacked => exact (List.append_nil _).symm
    | flat => cases p.opened <;> simp [push, warn, Statement.report?]
  | closing =>
    show (p.closeFragment span).warnings = _
    unfold closeFragment
    cases p.opened <;> simp [warn, Statement.report?]

/-- The report on a line comes after all others. -/
theorem warnings_step (nesting : Nesting) (p : Progress) (line : Line) :
    (p.step nesting line).warnings = p.warnings ++ (report? nesting p.opened line).toList := by
  unfold step report?
  split
  · exact (List.append_nil _).symm
  · cases Statement.ofLine line.text with
    | error t => rfl
    | ok st => exact warnings_apply nesting p line.span st

/-- What is true of every report on a line is true of all warnings before the end of the text. -/
theorem forall_warnings_foldl {nesting : Nesting} {P : Warning → Prop}
    (h : ∀ opened line w, report? nesting opened line = some w → P w) (ls : List Line) :
    ∀ w ∈ (ls.foldl (step nesting) start).warnings, P w := by
  induction ls using List.reverseRecOn with
  | nil => exact fun w hw => absurd hw List.not_mem_nil
  | append_singleton ls line ih =>
    intro w hw
    rw [List.foldl_append] at hw
    change w ∈ (step nesting (ls.foldl (step nesting) start) line).warnings at hw
    rw [warnings_step] at hw
    rcases List.mem_append.mp hw with hold | hnew
    · exact ih w hold
    · exact h _ line w (Option.mem_toList.mp hnew)

/-! ## The end of the text -/

variable (p : Progress)

/-- The end of the text reports open fragments. -/
theorem exists_of_unclosed? {w : Warning}
    (h : w ∈ p.opened.reverse.filterMap p.unclosed?) :
    ∃ operator span, w = .unclosedFragment operator span := by
  obtain ⟨o, -, ho⟩ := List.mem_filterMap.mp h
  obtain ⟨f, -, rfl⟩ := Option.map_eq_some_iff.mp ho
  exact ⟨f.operator, o.span, rfl⟩

/-- It adds nothing to the warnings of any other kind. -/
theorem filter_warnings_finish {q : Warning → Bool}
    (hq : ∀ operator span, q (.unclosedFragment operator span) = false) :
    p.finish.warnings.filter q = p.warnings.filter q := by
  have hnone : (p.opened.reverse.filterMap p.unclosed?).filter q = [] := by
    rw [List.filter_eq_nil_iff]
    intro w hw
    obtain ⟨operator, span, rfl⟩ := p.exists_of_unclosed? hw
    simp [hq]
  unfold finish
  rw [List.filter_append, hnone, List.append_nil]

theorem about_finish {t : Trouble} (ht : t ≠ .unclosedFragment) :
    p.finish.about t = p.warnings.filter (·.isAbout t) := by
  apply filter_warnings_finish
  intro operator span
  show (some Trouble.unclosedFragment == some t) = false
  simpa using ht.symm

/-- The end of the text leaves no line out. -/
theorem skippedLines_finish : p.finish.skippedLines = p.warnings.filter (·.isSkippedLine) :=
  p.filter_warnings_finish fun _ _ => rfl

/-- The warnings about open fragments, where none has been reported before. -/
theorem about_unclosed_finish (h : ∀ w ∈ p.warnings, w.isAbout .unclosedFragment = false) :
    p.finish.about .unclosedFragment = p.opened.reverse.filterMap p.unclosed? := by
  have hnone : p.warnings.filter (·.isAbout .unclosedFragment) = [] := by
    rw [List.filter_eq_nil_iff]
    intro w hw
    simp [h w hw]
  have hall : (p.opened.reverse.filterMap p.unclosed?).filter (·.isAbout .unclosedFragment) =
      p.opened.reverse.filterMap p.unclosed? := by
    rw [List.filter_eq_self]
    intro w hw
    obtain ⟨operator, span, rfl⟩ := p.exists_of_unclosed? hw
    rfl
  unfold Reading.about finish
  rw [List.filter_append, hnone, hall, List.nil_append]

end Progress

/-- A text is reported for each fragment that is open at its end, and for no other one. -/
theorem about_unclosed_read (nesting : Nesting) (source : String) :
    (read nesting source).about .unclosedFragment =
      let p := (lines source).foldl (Progress.step nesting) .start
      p.opened.reverse.filterMap p.unclosed? :=
  Progress.about_unclosed_finish _
    (Progress.forall_warnings_foldl (fun _ _ _ => isAbout_unclosed_of_report?) (lines source))

end SequenceXmi.Mermaid
