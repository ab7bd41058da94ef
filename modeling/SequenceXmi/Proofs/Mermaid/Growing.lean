import SequenceXmi.Proofs.Mermaid.Comparison
import SequenceXmi.Proofs.Mermaid.Structure

/-! # Reading on

Lines that come later add to what has been read and never rewrite it. Lists only grow at their ends,
and so does the list of messages of a fragment that is still open; a fragment that is closed is
frozen (`GrowsTo`). This is shown for each thing that a line can do, and holds for any number of
lines since it is transitive.

At the end of a text the open fragments are reported, each on the line that opens it. The fragment
at a position in the list is opened by the line at the same position among all openings
(`OpenedBy`), which tells from the report which fragments may still grow.

Main result: `read_append_continues`. -/

namespace SequenceXmi.Mermaid

open Text

/-! ## What has been read stays -/

/-- What has been read first, and what has been read when more lines have followed. -/
structure GrowsTo (p q : Progress) : Prop where
  lifelines : p.lifelines <+: q.lifelines
  topLevel : p.topLevel <+: q.topLevel
  warnings : p.warnings <+: q.warnings
  /-- Every fragment keeps its place, its operator and its guard, and loses no message. -/
  fragments : ∀ (k : Nat) (f : Fragment), p.fragments[k]? = some f →
    ∃ g, q.fragments[k]? = some g ∧ ExtendedBy f g
  /-- A fragment that is not open does not change at all. -/
  frozen : ∀ (k : Nat) (f : Fragment), p.fragments[k]? = some f → (∀ o ∈ p.opened, o.index ≠ k) →
    q.fragments[k]? = some f
  /-- A fragment that is open now was open before, or is new. -/
  opened : ∀ o ∈ q.opened, o ∈ p.opened ∨ p.fragments.length ≤ o.index

namespace GrowsTo

variable {p q r : Progress}

theorem refl (p : Progress) : GrowsTo p p where
  lifelines := List.prefix_refl _
  topLevel := List.prefix_refl _
  warnings := List.prefix_refl _
  fragments := fun _ f hf => ⟨f, hf, .refl f⟩
  frozen := fun _ _ hf _ => hf
  opened := fun _ ho => .inl ho

/-- No fragment is lost. -/
theorem length_le (h : GrowsTo p q) : p.fragments.length ≤ q.fragments.length := by
  by_contra hshort
  have hlt : q.fragments.length < p.fragments.length := by omega
  obtain ⟨g, hg, -⟩ := h.fragments _ _ (List.getElem?_eq_getElem hlt)
  rw [List.getElem?_eq_none (Nat.le_refl _)] at hg
  cases hg

theorem trans (hpq : GrowsTo p q) (hqr : GrowsTo q r) : GrowsTo p r where
  lifelines := hpq.lifelines.trans hqr.lifelines
  topLevel := hpq.topLevel.trans hqr.topLevel
  warnings := hpq.warnings.trans hqr.warnings
  fragments := by
    intro k f hf
    obtain ⟨g, hg, hfg⟩ := hpq.fragments k f hf
    obtain ⟨h, hh, hgh⟩ := hqr.fragments k g hg
    exact ⟨h, hh, hfg.trans hgh⟩
  frozen := by
    intro k f hf hclosed
    apply hqr.frozen k f (hpq.frozen k f hf hclosed)
    intro o ho hk
    -- A fragment of the first list that is not open then does not open later.
    have hlt : k < p.fragments.length := (List.getElem?_eq_some_iff.mp hf).1
    rcases hpq.opened o ho with hold | hnew
    · exact hclosed o hold hk
    · omega
  opened := by
    intro o ho
    have hle := hpq.length_le
    rcases hqr.opened o ho with hold | hnew
    · exact hpq.opened o hold
    · exact .inr (Nat.le_trans hle hnew)

/-! ### One line -/

/-- Where the fragments stay as they are, some of them may be closed. -/
theorem of_fragments_eq (hlifelines : p.lifelines <+: q.lifelines)
    (htopLevel : p.topLevel <+: q.topLevel) (hwarnings : p.warnings <+: q.warnings)
    (hfragments : q.fragments = p.fragments) (hopened : q.opened ⊆ p.opened) : GrowsTo p q where
  lifelines := hlifelines
  topLevel := htopLevel
  warnings := hwarnings
  fragments := by
    intro k f hf
    exact ⟨f, by rw [hfragments, hf], .refl f⟩
  frozen := by
    intro k f hf _
    rw [hfragments, hf]
  opened := fun _ ho => .inl (hopened ho)

theorem warn (p : Progress) (w : Warning) : GrowsTo p (p.warn w) :=
  of_fragments_eq (List.prefix_refl _) (List.prefix_refl _) (List.prefix_append _ _) rfl
    (List.Subset.refl _)

theorem declare (p : Progress) (l : Lifeline) : GrowsTo p (p.declare l) :=
  of_fragments_eq (List.prefix_append _ _) (List.prefix_refl _) (List.prefix_refl _) rfl
    (List.Subset.refl _)

/-- The innermost open fragment is closed. -/
theorem close {o : OpenFragment} {outer : List OpenFragment} (h : p.opened = o :: outer) :
    GrowsTo p { p with opened := outer } := by
  have houter : outer ⊆ p.opened := by
    rw [h]
    exact List.subset_cons_self o outer
  exact of_fragments_eq (List.prefix_refl _) (List.prefix_refl _) (List.prefix_refl _) rfl houter

/-- A message changes no fragment but the innermost open one, and is added at its end. -/
theorem send (p : Progress) (m : Message) : GrowsTo p (p.send m) := by
  unfold Progress.send
  split
  · exact of_fragments_eq (List.prefix_refl _) (List.prefix_append _ _) (List.prefix_refl _) rfl
      (List.Subset.refl _)
  · next o outer hp =>
    refine ⟨List.prefix_refl _, List.prefix_refl _, List.prefix_refl _, ?_, ?_, fun _ => .inl⟩
    · intro k f hf
      by_cases hk : o.index = k
      · refine ⟨f.push m, ?_, (ExtendedBy.refl f).push_right m⟩
        simp [hk, hf]
      · refine ⟨f, ?_, .refl f⟩
        rw [List.getElem?_modify_ne _ _ hk, hf]
    · intro k f hf hclosed
      have hk : o.index ≠ k := hclosed o (by rw [hp]; exact List.mem_cons_self)
      rw [List.getElem?_modify_ne _ _ hk, hf]

/-- A new fragment comes after all others. -/
theorem push (p : Progress) (operator : Operator) (guard : String) (span : Span) :
    GrowsTo p (p.push operator guard span) where
  lifelines := List.prefix_refl _
  topLevel := List.prefix_refl _
  warnings := List.prefix_refl _
  fragments := by
    intro k f hf
    have hlt : k < p.fragments.length := (List.getElem?_eq_some_iff.mp hf).1
    exact ⟨f, (List.getElem?_append_left hlt).trans hf, .refl f⟩
  frozen := by
    intro k f hf _
    have hlt : k < p.fragments.length := (List.getElem?_eq_some_iff.mp hf).1
    exact (List.getElem?_append_left hlt).trans hf
  opened := by
    intro o ho
    rcases List.mem_cons.mp ho with rfl | hold
    · exact .inr (Nat.le_refl _)
    · exact .inl hold

theorem openFragment (nesting : Nesting) (p : Progress) (operator : Operator) (guard : String)
    (span : Span) : GrowsTo p (p.openFragment nesting operator guard span) := by
  unfold Progress.openFragment
  split
  · next previous outer hp =>
    -- With flat nesting the open fragment is closed first.
    exact ((close hp).trans (warn _ _)).trans (push _ operator guard span)
  · exact push p operator guard span

theorem closeFragment (p : Progress) (span : Span) : GrowsTo p (p.closeFragment span) := by
  unfold Progress.closeFragment
  split
  · exact warn p _
  · next o outer hp => exact close hp

theorem apply (nesting : Nesting) (p : Progress) (span : Span) (st : Statement) :
    GrowsTo p (p.apply nesting span st) := by
  cases st with
  | header => exact refl p
  | participant aliasName displayName => exact declare p _
  | message sender receiver text => exact send p _
  | opening operator guard => exact openFragment nesting p operator guard span
  | closing => exact closeFragment p span
  | note target text => exact send p _

/-- What one line does. -/
theorem step (nesting : Nesting) (p : Progress) (line : Line) :
    GrowsTo p (p.step nesting line) := by
  unfold Progress.step
  split
  · exact refl p
  · cases Statement.ofLine line.text with
    | error t => exact warn p _
    | ok st => exact apply nesting p line.span st

/-- What all lines do. -/
theorem foldl_step (nesting : Nesting) (p : Progress) (ls : List Line) :
    GrowsTo p (ls.foldl (Progress.step nesting) p) := by
  induction ls generalizing p with
  | nil => exact refl p
  | cons line ls ih => exact (step nesting p line).trans (ih _)

end GrowsTo

/-! ## Lines that open fragments -/

/-- The statement that opens a fragment. -/
def openingOf (f : Fragment) : Statement := .opening f.operator f.guard

/-- The openings among the brackets of a text, in order. -/
def openings (source : String) : List Bracket := (brackets source).filter (·.opens)

/-- The fragments are opened by these brackets, one each and in order, and the lines of the open
fragments are remembered. -/
structure OpenedBy (bs : List Bracket) (p : Progress) : Prop where
  statements : bs.map (·.statement) = p.fragments.map openingOf
  spans : ∀ o ∈ p.opened, bs[o.index]?.map (·.line.span) = some o.span

namespace OpenedBy

variable {nesting : Nesting} {bs : List Bracket} {p : Progress}

theorem start : OpenedBy [] .start := ⟨rfl, fun _ ho => absurd ho List.not_mem_nil⟩

/-- There are as many fragments as openings. -/
theorem length_eq (h : OpenedBy bs p) : bs.length = p.fragments.length := by
  have hlength := congrArg List.length h.statements
  rwa [List.length_map, List.length_map] at hlength

theorem warn (h : OpenedBy bs p) (w : Warning) : OpenedBy bs (p.warn w) := ⟨h.statements, h.spans⟩

/-- The innermost open fragment is closed. -/
theorem close (h : OpenedBy bs p) {o : OpenFragment} {outer : List OpenFragment}
    (hp : p.opened = o :: outer) : OpenedBy bs { p with opened := outer } := by
  refine ⟨h.statements, fun o' ho' => h.spans o' ?_⟩
  rw [hp]
  exact List.mem_cons_of_mem o ho'

/-- A message changes neither operator nor guard of any fragment. -/
theorem send (h : OpenedBy bs p) (m : Message) : OpenedBy bs (p.send m) := by
  unfold Progress.send
  split
  · exact ⟨h.statements, h.spans⟩
  · next o outer hp =>
    refine ⟨?_, h.spans⟩
    rw [h.statements]
    apply List.ext_getElem?
    intro k
    by_cases hk : o.index = k
    · subst hk
      cases hf : p.fragments[o.index]? <;> simp [hf, openingOf, Fragment.push]
    · rw [List.getElem?_map, List.getElem?_map, List.getElem?_modify_ne _ _ hk]

/-- A new opening is the last one, as is its fragment. -/
theorem push (h : OpenedBy bs p) {b : Bracket} {operator : Operator} {guard : String}
    (hb : b.statement = .opening operator guard) :
    OpenedBy (bs ++ [b]) (p.push operator guard b.line.span) := by
  have hlength := h.length_eq
  refine ⟨?_, ?_⟩
  · show (bs ++ [b]).map (·.statement) =
      (p.fragments ++ [Fragment.empty operator guard]).map openingOf
    rw [List.map_append, List.map_append, h.statements, List.map_singleton, hb]
    rfl
  · intro o ho
    rcases List.mem_cons.mp ho with rfl | hold
    · simp [← hlength]
    · have hspan := h.spans o hold
      have hlt : o.index < bs.length := by
        by_contra hge
        rw [List.getElem?_eq_none (by omega)] at hspan
        cases hspan
      rw [List.getElem?_append_left hlt, hspan]

/-- Opening a fragment may close the one before it. -/
theorem openFragment (h : OpenedBy bs p) {b : Bracket} {operator : Operator} {guard : String}
    (hb : b.statement = .opening operator guard) :
    OpenedBy (bs ++ [b]) (p.openFragment nesting operator guard b.line.span) := by
  unfold Progress.openFragment
  split
  · next previous outer hp => exact ((h.close hp).warn _).push hb
  · exact h.push hb

theorem closeFragment (h : OpenedBy bs p) (span : Span) : OpenedBy bs (p.closeFragment span) := by
  unfold Progress.closeFragment
  split
  · exact h.warn _
  · next o outer hp => exact h.close hp

/-- A line that is no bracket. -/
theorem other (h : OpenedBy bs p) {line : Line} (hline : Bracket.ofLine? line = none) :
    OpenedBy bs (p.step nesting line) := by
  cases hst : statement? line with
  | some st =>
    have hnot := Bracket.not_opensOrEnds hline hst
    rw [step_of_statement? hst]
    cases st with
    | opening => exact absurd (.inl rfl) hnot
    | closing => exact absurd (.inr rfl) hnot
    | header => exact h
    | participant => exact ⟨h.statements, h.spans⟩
    | message | note => exact h.send _
  | none =>
    unfold Progress.step
    rcases statement?_eq_none.mp hst with hignorable | ⟨t, herror⟩
    · rw [if_pos hignorable]
      exact h
    · rw [herror]
      split
      · exact h
      · exact h.warn _

/-- What one line preserves. -/
theorem step (h : OpenedBy bs p) (line : Line) :
    OpenedBy (bs ++ (Bracket.ofLine? line).toList.filter (·.opens)) (p.step nesting line) := by
  rcases Bracket.ofLine?_cases line with
    hnone | ⟨b, operator, guard, hb, rfl, hopens, hst⟩ | ⟨b, hb, rfl, hopens, hst⟩
  · rw [hnone, Option.toList_none, List.filter_nil, List.append_nil]
    exact h.other hnone
  · have hstatement : b.statement = .opening operator guard :=
      Option.some.inj (b.reads.symm.trans hst)
    rw [hb, Option.toList_some, List.filter_cons_of_pos hopens, List.filter_nil,
      step_of_statement? hst]
    exact h.openFragment hstatement
  · rw [hb, Option.toList_some, List.filter_cons_of_neg (by simp [hopens]), List.filter_nil,
      List.append_nil, step_of_statement? hst]
    exact h.closeFragment b.line.span

/-- What all lines preserve. -/
theorem foldl_step (nesting : Nesting) (ls : List Line) :
    OpenedBy ((ls.filterMap Bracket.ofLine?).filter (·.opens))
      (ls.foldl (Progress.step nesting) .start) := by
  induction ls using List.reverseRecOn with
  | nil => exact start
  | append_singleton ls line ih =>
    rw [List.foldl_append, filterMap_concat, List.filter_append]
    exact ih.step line

/-- An open fragment has an opening, and is reported on its line. -/
theorem exists_unclosed (h : OpenedBy bs p) {o : OpenFragment} (ho : o ∈ p.opened) {f : Fragment}
    (hf : p.fragments[o.index]? = some f) :
    ∃ b, bs[o.index]? = some b ∧ b.statement = openingOf f ∧
      p.unclosed? o = some (.unclosedFragment f.operator b.line.span) := by
  obtain ⟨b, hb, hspan⟩ := Option.map_eq_some_iff.mp (h.spans o ho)
  have hstatement := congrArg (·[o.index]?) h.statements
  simp only [List.getElem?_map, hb, hf, Option.map_some, Option.some.injEq] at hstatement
  refine ⟨b, hb, hstatement, ?_⟩
  rw [Progress.unclosed?, hf, hspan]
  rfl

end OpenedBy

/-! ## Reading -/

/-- What is read of a text is read of a longer text too, which begins with it. -/
structure Continues (nesting : Nesting) (source : String) (whole : Reading) : Prop where
  lifelines : (read nesting source).diagram.lifelines <+: whole.diagram.lifelines
  topLevel : (read nesting source).diagram.topLevel <+: whole.diagram.topLevel
  /-- Every fragment stands at its place, with the same operator and guard, and perhaps with more
  messages at its end. -/
  fragments : ∀ (k : Nat) (f : Fragment), (read nesting source).diagram.fragments[k]? = some f →
    ∃ g, whole.diagram.fragments[k]? = some g ∧ ExtendedBy f g
  /-- A fragment that gets more messages is open at the end of the text and reported there, on the
  line of the opening at the same place. -/
  grown : ∀ (k : Nat) (f g : Fragment), (read nesting source).diagram.fragments[k]? = some f →
    whole.diagram.fragments[k]? = some g → f.messages ≠ g.messages →
    ∃ b, (openings source)[k]? = some b ∧ b.statement = openingOf f ∧
      .unclosedFragment f.operator b.line.span ∈ (read nesting source).about .unclosedFragment
  /-- Every other warning stays, in the same place and in the same words. -/
  warnings : (read nesting source).warnings.filter (!·.isAbout .unclosedFragment) <+:
    whole.warnings

/-- Only the end of the text gives warnings about open fragments. -/
theorem filter_not_unclosed_read (nesting : Nesting) (source : String) :
    (read nesting source).warnings.filter (!·.isAbout .unclosedFragment) =
      ((lines source).foldl (Progress.step nesting) .start).warnings := by
  let p := (lines source).foldl (Progress.step nesting) .start
  have hbefore : ∀ w ∈ p.warnings, w.isAbout .unclosedFragment = false :=
    Progress.forall_warnings_foldl (fun _ _ _ => isAbout_unclosed_of_report?) (lines source)
  have hend : (p.opened.reverse.filterMap p.unclosed?).filter
      (!·.isAbout .unclosedFragment) = [] := by
    rw [List.filter_eq_nil_iff]
    intro w hw
    obtain ⟨operator, span, rfl⟩ := p.exists_of_unclosed? hw
    exact Bool.false_ne_true
  show (p.warnings ++ p.opened.reverse.filterMap p.unclosed?).filter _ = p.warnings
  rw [List.filter_append, hend, List.append_nil, List.filter_eq_self]
  intro w hw
  rw [hbefore w hw]
  rfl

/-- Text that follows adds to what is read of a text, and rewrites nothing, whatever fragments are
open where it begins. -/
theorem read_append_continues (nesting : Nesting) {s : String} (t : String)
    (h : EndsLine s.toList) : Continues nesting s (read nesting (s ++ t)) := by
  obtain ⟨after, hlines, -⟩ := lines_append h t
  let p := (lines s).foldl (Progress.step nesting) .start
  let q := after.foldl (Progress.step nesting) p
  have hread : read nesting (s ++ t) = q.finish := by
    unfold read
    rw [hlines, List.foldl_append]
  have hgrows : GrowsTo p q := GrowsTo.foldl_step nesting p after
  have hopenedBy : OpenedBy (openings s) p := OpenedBy.foldl_step nesting (lines s)
  rw [hread]
  refine ⟨hgrows.lifelines, hgrows.topLevel, hgrows.fragments, ?_, ?_⟩
  · intro k f g hf hg hmessages
    by_cases hopen : ∃ o ∈ p.opened, o.index = k
    · obtain ⟨o, ho, rfl⟩ := hopen
      obtain ⟨b, hb, hstatement, hreport⟩ := hopenedBy.exists_unclosed ho hf
      refine ⟨b, hb, hstatement, ?_⟩
      rw [about_unclosed_read]
      exact List.mem_filterMap.mpr ⟨o, List.mem_reverse.mpr ho, hreport⟩
    · -- A closed fragment would be the same in both.
      have hsame := hgrows.frozen k f hf fun o ho hk => hopen ⟨o, ho, hk⟩
      rw [show q.fragments[k]? = some g from hg] at hsame
      exact absurd (congrArg Fragment.messages (Option.some.inj hsame)).symm hmessages
  · rw [filter_not_unclosed_read]
    exact hgrows.warnings.trans (List.prefix_append _ _)

/-- A text with a closed fragment, a line that is left out, an end too many, and two fragments that
are left open. -/
def unfinishedText : String :=
  "participant A\nalt é\r\nA->>A: one\nend\nfoo\nend\nloop b\n alt c\n"

/-- The open fragments get one message each, and the top level gets one. -/
theorem read_append_continues_unfinished :
    let t := "A->>A: two\nend\nA->>A: three\nend\nA->>A: four\nalt d"
    EndsLine unfinishedText.toList ∧
      Continues .stacked unfinishedText (read .stacked (unfinishedText ++ t)) ∧
      (read .stacked unfinishedText).diagram.fragments.map (·.messages.length) = [1, 0, 0] ∧
      (read .stacked (unfinishedText ++ t)).diagram.fragments.map (·.messages.length) =
        [1, 1, 1, 0] := by
  intro t
  have hends : EndsLine unfinishedText.toList := by decide
  exact ⟨hends, read_append_continues .stacked t hends, by decide +kernel, by decide +kernel⟩

end SequenceXmi.Mermaid
