import Mathlib.Data.List.Forall2
import SequenceXmi.Proofs.Mermaid.Reports
import SequenceXmi.Proofs.Mermaid.Routing
import SequenceXmi.Proofs.Mermaid.Simulation

/-! # Flat and stacked nesting

The same text is read with flat and with stacked nesting, line by line. Both readings are the same
up to the first fragment that opens inside another one, and flat nesting reports this
(`read_flat_eq_read_stacked_iff`).

From there on they differ, but not in everything (`read_regrouped`). Whenever a fragment is open
with flat nesting, it is the innermost one with stacked nesting, and both have put the same messages
into it (`Deepened`). So messages only move from the top level into fragments. -/

namespace SequenceXmi.Mermaid

open Text

/-! ## Texts without nesting -/

namespace Progress

/-- Only an opening inside a fragment tells the two apart, and flat nesting reports it. -/
theorem step_flat_eq_or_report (p : Progress) (line : Line) :
    p.step .flat line = p.step .stacked line ∨
      ∃ w, report? .flat p.opened line = some w ∧ w.isAbout .implicitlyClosed := by
  unfold step report?
  split
  · exact .inl rfl
  · cases Statement.ofLine line.text with
    | error t => exact .inl rfl
    | ok st =>
      cases st with
      | opening operator guard =>
        cases hp : p.opened with
        | nil =>
          left
          simp only [apply, openFragment, hp]
        | cons previous outer => exact .inr ⟨_, rfl, rfl⟩
      | header | participant | message | closing | note => exact .inl rfl

/-- The runs agree until flat nesting reports an opening inside a fragment. -/
theorem foldl_step_flat_eq_or_mem (ls : List Line) :
    ls.foldl (step .flat) start = ls.foldl (step .stacked) start ∨
      ∃ w ∈ (ls.foldl (step .flat) start).warnings, w.isAbout .implicitlyClosed := by
  induction ls using List.reverseRecOn with
  | nil => exact .inl rfl
  | append_singleton ls line ih =>
    simp only [List.foldl_append, List.foldl_cons, List.foldl_nil, warnings_step]
    rcases ih with heq | ⟨w, hw, habout⟩
    · rcases step_flat_eq_or_report (ls.foldl (step .flat) start) line with hstep | ⟨w, hw, habout⟩
      · left
        rw [hstep, heq]
      · right
        exact ⟨w, List.mem_append_right _ (Option.mem_toList.mpr hw), habout⟩
    · -- What has been reported stays reported.
      right
      exact ⟨w, List.mem_append_left _ hw, habout⟩

end Progress

/-- With stacked nesting no fragment is reported to close another one. -/
theorem about_implicitlyClosed_read_stacked (source : String) :
    (read .stacked source).about .implicitlyClosed = [] := by
  have hnone := Progress.forall_warnings_foldl
    (fun _ _ _ => isAbout_implicitlyClosed_of_report?) (lines source)
  unfold read
  rw [Progress.about_finish _ (by decide), List.filter_eq_nil_iff]
  intro w hw
  simp [hnone w hw]

/-- A text is read in the same way with flat and with stacked nesting if and only if flat nesting
reports no fragment that closes another one. -/
theorem read_flat_eq_read_stacked_iff (source : String) :
    read .flat source = read .stacked source ↔
      (read .flat source).about .implicitlyClosed = [] := by
  constructor
  · intro h
    rw [h]
    exact about_implicitlyClosed_read_stacked source
  · intro h
    unfold read at h ⊢
    rw [Progress.about_finish _ (by decide), List.filter_eq_nil_iff] at h
    rcases Progress.foldl_step_flat_eq_or_mem (lines source) with heq | ⟨w, hw, habout⟩
    · rw [heq]
    · exact absurd habout (h w hw)

/-! ## Lists in relation -/

section Related

variable {α : Type} {R : α → α → Prop} {l₁ l₂ : List α} {g : α → α}

/-- A change that only the second list sees. -/
theorem forall₂_modify_right (h : List.Forall₂ R l₁ l₂) (hg : ∀ a b, R a b → R a (g b))
    (i : Nat) : List.Forall₂ R l₁ (l₂.modify i g) := by
  induction h generalizing i with
  | nil => simp
  | cons hab hrest ih =>
    cases i with
    | zero => exact .cons (hg _ _ hab) hrest
    | succ i => exact .cons hab (ih i)

/-- A change of both lists at one place. -/
theorem forall₂_modify (h : List.Forall₂ R l₁ l₂) {i : Nat}
    (hg : ∀ a b, l₁[i]? = some a → l₂[i]? = some b → R a b → R (g a) (g b)) :
    List.Forall₂ R (l₁.modify i g) (l₂.modify i g) := by
  induction h generalizing i with
  | nil => simp
  | cons hab hrest ih =>
    cases i with
    | zero => exact .cons (hg _ _ rfl rfl hab) hrest
    | succ i => exact .cons hab (ih fun a b ha hb => hg a b ha hb)

end Related

/-! ## Fragments that get more messages -/

/-- The second fragment has the same operator and guard, and perhaps more messages at its end. -/
structure ExtendedBy (f g : Fragment) : Prop where
  operator : f.operator = g.operator
  guard : f.guard = g.guard
  messages : f.messages <+: g.messages

namespace ExtendedBy

variable {f g : Fragment}

theorem refl (f : Fragment) : ExtendedBy f f := ⟨rfl, rfl, List.prefix_refl _⟩

theorem trans {h : Fragment} (hfg : ExtendedBy f g) (hgh : ExtendedBy g h) : ExtendedBy f h :=
  ⟨hfg.operator.trans hgh.operator, hfg.guard.trans hgh.guard, hfg.messages.trans hgh.messages⟩

/-- One more message in the longer fragment. -/
theorem push_right (h : ExtendedBy f g) (m : Message) : ExtendedBy f (g.push m) :=
  ⟨h.operator, h.guard, h.messages.trans (List.prefix_append _ _)⟩

/-- One more message in both, where the longer one is not longer yet. -/
theorem push (h : ExtendedBy f g) (hsame : f.messages = g.messages) (m : Message) :
    ExtendedBy (f.push m) (g.push m) := by
  have hpush : (f.push m).messages = (g.push m).messages := congrArg (· ++ [m]) hsame
  exact ⟨h.operator, h.guard, hpush ▸ List.prefix_refl _⟩

theorem map_operator {fs gs : List Fragment} (h : List.Forall₂ ExtendedBy fs gs) :
    fs.map (·.operator) = gs.map (·.operator) := by
  induction h with
  | nil => rfl
  | cons hfg _ ih => rw [List.map_cons, List.map_cons, hfg.operator, ih]

end ExtendedBy

/-! ## What both have read -/

/-- The messages that an open fragment has got. -/
def Progress.messagesIn (p : Progress) (o : OpenFragment) : Option (List Message) :=
  p.fragments[o.index]?.map (·.messages)

/-- What has been read of some lines with flat nesting, and with stacked nesting. -/
structure Deepened (flat stacked : Progress) : Prop where
  lifelines : flat.lifelines = stacked.lifelines
  topLevel : stacked.topLevel.Sublist flat.topLevel
  fragments : List.Forall₂ ExtendedBy flat.fragments stacked.fragments
  /-- The fragment that is open with flat nesting is the innermost one with stacked nesting, and has
  no message less. -/
  opened : flat.opened = [] ∨ ∃ o outer, flat.opened = [o] ∧ stacked.opened = o :: outer ∧
    flat.messagesIn o = stacked.messagesIn o

namespace Deepened

variable {flat stacked : Progress}

theorem start : Deepened .start .start := ⟨rfl, List.Sublist.refl _, .nil, .inl rfl⟩

/-- Warnings do not matter. -/
theorem warn_left (h : Deepened flat stacked) (w : Warning) : Deepened (flat.warn w) stacked :=
  ⟨h.lifelines, h.topLevel, h.fragments, h.opened⟩

theorem warn_right (h : Deepened flat stacked) (w : Warning) : Deepened flat (stacked.warn w) :=
  ⟨h.lifelines, h.topLevel, h.fragments, h.opened⟩

theorem declare (h : Deepened flat stacked) (l : Lifeline) :
    Deepened (flat.declare l) (stacked.declare l) where
  lifelines := congrArg (· ++ [l]) h.lifelines
  topLevel := h.topLevel
  fragments := h.fragments
  opened := h.opened

/-- Where no fragment is open with flat nesting, it does not matter which ones are open with stacked
nesting. -/
theorem drop (h : Deepened flat stacked) (stack : List OpenFragment) :
    Deepened { flat with opened := [] } { stacked with opened := stack } :=
  ⟨h.lifelines, h.topLevel, h.fragments, .inl rfl⟩

/-- If nothing is open with stacked nesting, then nothing is with flat nesting. -/
theorem opened_eq_nil (h : Deepened flat stacked) (hstacked : stacked.opened = []) :
    flat.opened = [] := by
  rcases h.opened with hflat | ⟨o, outer, -, houter, -⟩
  · exact hflat
  · rw [hstacked] at houter
    cases houter

/-- A message outside every fragment of flat nesting may be inside one of stacked nesting. -/
theorem send_outside (h : Deepened flat stacked) (hflat : flat.opened = []) (m : Message) :
    Deepened (flat.send m) (stacked.send m) := by
  have hsend : flat.send m = { flat with topLevel := flat.topLevel ++ [m] } := by
    simp only [Progress.send, hflat]
  rw [hsend]
  cases hstacked : stacked.opened with
  | nil =>
    have hsend : stacked.send m = { stacked with topLevel := stacked.topLevel ++ [m] } := by
      simp only [Progress.send, hstacked]
    rw [hsend]
    exact ⟨h.lifelines, h.topLevel.append (List.Sublist.refl [m]), h.fragments, .inl hflat⟩
  | cons o outer =>
    have hsend : stacked.send m =
        { stacked with fragments := stacked.fragments.modify o.index (·.push m) } := by
      simp only [Progress.send, hstacked]
    rw [hsend]
    exact ⟨h.lifelines, h.topLevel.trans (List.sublist_append_left _ _),
      forall₂_modify_right h.fragments (fun _ _ hab => hab.push_right m) o.index, .inl hflat⟩

/-- A message inside the fragment of flat nesting is inside the same one of stacked nesting. -/
theorem send_inside (h : Deepened flat stacked) {o : OpenFragment} {outer : List OpenFragment}
    (hflat : flat.opened = [o]) (hstacked : stacked.opened = o :: outer)
    (hsame : flat.messagesIn o = stacked.messagesIn o) (m : Message) :
    Deepened (flat.send m) (stacked.send m) := by
  have hsendFlat : flat.send m =
      { flat with fragments := flat.fragments.modify o.index (·.push m) } := by
    simp only [Progress.send, hflat]
  have hsendStacked : stacked.send m =
      { stacked with fragments := stacked.fragments.modify o.index (·.push m) } := by
    simp only [Progress.send, hstacked]
  have hafter : ∀ p : Progress,
      { p with fragments := p.fragments.modify o.index (·.push m) }.messagesIn o =
        (p.messagesIn o).map (· ++ [m]) := by
    intro p
    unfold Progress.messagesIn
    cases hf : p.fragments[o.index]? <;> simp [hf, Fragment.push]
  rw [hsendFlat, hsendStacked]
  refine ⟨h.lifelines, h.topLevel, forall₂_modify h.fragments ?_, .inr ?_⟩
  · intro f g hf hg hfg
    -- Both fragments have the same messages so far.
    have hmessages : f.messages = g.messages := by
      simpa [Progress.messagesIn, hf, hg] using hsame
    exact hfg.push hmessages m
  · exact ⟨o, outer, hflat, hstacked, by rw [hafter, hafter, hsame]⟩

theorem send (h : Deepened flat stacked) (m : Message) :
    Deepened (flat.send m) (stacked.send m) := by
  rcases h.opened with hflat | ⟨o, outer, hflat, hstacked, hsame⟩
  · exact h.send_outside hflat m
  · exact h.send_inside hflat hstacked hsame m

/-- A new fragment is the innermost one of both. -/
theorem push (h : Deepened flat stacked) (hflat : flat.opened = []) (operator : Operator)
    (guard : String) (span : Span) :
    Deepened (flat.push operator guard span) (stacked.push operator guard span) := by
  have hlength : flat.fragments.length = stacked.fragments.length := h.fragments.length_eq
  refine ⟨h.lifelines, h.topLevel, ?_, .inr ⟨⟨flat.fragments.length, span⟩, stacked.opened, ?_⟩⟩
  · exact List.rel_append h.fragments (.cons (.refl _) .nil)
  · simp [Progress.push, Progress.messagesIn, hflat, hlength]

theorem openFragment (h : Deepened flat stacked) (operator : Operator) (guard : String)
    (span : Span) :
    Deepened (flat.openFragment .flat operator guard span)
      (stacked.openFragment .stacked operator guard span) := by
  show Deepened _ (stacked.push operator guard span)
  rcases h.opened with hflat | ⟨o, outer, hflat, -, -⟩
  · simp only [Progress.openFragment, hflat]
    exact h.push hflat operator guard span
  · -- Flat nesting closes its fragment first.
    simp only [Progress.openFragment, hflat]
    exact ((h.drop stacked.opened).warn_left _).push rfl operator guard span

theorem closeFragment (h : Deepened flat stacked) (span : Span) :
    Deepened (flat.closeFragment span) (stacked.closeFragment span) := by
  unfold Progress.closeFragment
  rcases h.opened with hflat | ⟨o, outer, hflat, hstacked, -⟩
  · rw [hflat]
    cases hstacked : stacked.opened with
    | nil => exact (h.warn_left _).warn_right _
    | cons o outer =>
      have hdrop := h.drop outer
      rw [← hflat] at hdrop
      exact hdrop.warn_left _
  · rw [hflat, hstacked]
    exact h.drop outer

/-- Whatever a line does, it preserves what both have read. -/
theorem simulation : Simulation .flat .stacked id Deepened where
  skip h _ _ _ _ := (h.warn_left _).warn_right _
  declare h l := h.declare l
  send h m := h.send m
  openFragment h operator guard span := h.openFragment operator guard span
  closeFragment h span := h.closeFragment span

/-- What all lines preserve. -/
theorem foldl_step (ls : List Line) :
    Deepened (ls.foldl (Progress.step .flat) .start)
      (ls.foldl (Progress.step .stacked) .start) :=
  simulation.foldl_step_same start ls

end Deepened

/-! ## Warnings of both -/

/-- Stacked nesting reports what flat nesting does, or it is silent about a line that is not left
out. -/
theorem report?_flat_stacked {flat stacked : List OpenFragment}
    (h : stacked = [] → flat = []) (line : Line) :
    report? .stacked stacked line = report? .flat flat line ∨
      report? .stacked stacked line = none ∧
        ∃ w, report? .flat flat line = some w ∧ w.isSkippedLine = false := by
  unfold report?
  split
  · exact .inl rfl
  · cases Statement.ofLine line.text with
    | error t => exact .inl rfl
    | ok st =>
      cases st with
      | opening operator guard =>
        cases flat with
        | nil => exact .inl rfl
        | cons previous outer => exact .inr ⟨rfl, _, rfl, rfl⟩
      | closing =>
        cases stacked with
        | nil =>
          rw [h rfl]
          exact .inl rfl
        | cons o outer =>
          cases flat with
          | nil => exact .inr ⟨rfl, _, rfl, rfl⟩
          | cons previous rest => exact .inl rfl
      | header | participant | message | note => exact .inl rfl

/-- Before the end of the text, stacked nesting has nothing to report but what flat nesting reports,
and both leave out the same lines. -/
theorem warnings_foldl_flat_stacked (ls : List Line) :
    (ls.foldl (Progress.step .stacked) .start).warnings.Sublist
        (ls.foldl (Progress.step .flat) .start).warnings ∧
      (ls.foldl (Progress.step .flat) .start).warnings.filter (·.isSkippedLine) =
        (ls.foldl (Progress.step .stacked) .start).warnings.filter (·.isSkippedLine) := by
  induction ls using List.reverseRecOn with
  | nil => exact ⟨List.Sublist.refl _, rfl⟩
  | append_singleton ls line ih =>
    obtain ⟨hsublist, hskipped⟩ := ih
    simp only [List.foldl_append, List.foldl_cons, List.foldl_nil, Progress.warnings_step,
      List.filter_append]
    rcases report?_flat_stacked (Deepened.foldl_step ls).opened_eq_nil line with
      hsame | ⟨hnone, w, hw, hnot⟩
    · rw [hsame]
      exact ⟨hsublist.append (List.Sublist.refl _), by rw [hskipped]⟩
    · rw [hnone, hw]
      refine ⟨?_, ?_⟩
      · exact hsublist.append (List.nil_sublist _)
      · simp [hskipped, hnot]

/-- Only the operator of an open fragment is reported. -/
theorem unclosed?_eq_map_operator (p : Progress) (o : OpenFragment) :
    p.unclosed? o =
      (p.fragments.map (·.operator))[o.index]?.map (Warning.unclosedFragment · o.span) := by
  unfold Progress.unclosed?
  rw [List.getElem?_map, Option.map_map]
  rfl

/-- Flat nesting leaves at most one fragment open, and stacked nesting leaves it open too. -/
theorem Deepened.unclosed {flat stacked : Progress} (h : Deepened flat stacked) :
    (flat.opened.reverse.filterMap flat.unclosed?).Sublist
        (stacked.opened.reverse.filterMap stacked.unclosed?) ∧
      (flat.opened.reverse.filterMap flat.unclosed?).length ≤ 1 := by
  have hsame : flat.unclosed? = stacked.unclosed? := by
    funext o
    rw [unclosed?_eq_map_operator, unclosed?_eq_map_operator, ExtendedBy.map_operator h.fragments]
  rcases h.opened with hflat | ⟨o, outer, hflat, hstacked, -⟩
  · rw [hflat]
    exact ⟨List.nil_sublist _, Nat.zero_le 1⟩
  · -- The fragment of flat nesting is reported last.
    have hlast : (o :: outer).reverse = outer.reverse ++ [o] := List.reverse_cons
    rw [hflat, hstacked, hsame, hlast, List.filterMap_append]
    exact ⟨List.sublist_append_right _ _, List.length_filterMap_le _ _⟩

/-! ## Numbers of messages -/

/-- Every message of the text counts, whatever the nesting. -/
theorem messageCount_read (nesting : Nesting) (source : String) :
    (read nesting source).diagram.messageCount =
      ((accepted source).filterMap (·.message?)).length := by
  rw [Diagram.messageCount_eq_length, diagram_read]
  exact (perm_allMessages_route nesting (accepted source)).length_eq

/-! ## Both readings -/

/-- How a text is read with stacked nesting, as against flat nesting. -/
structure Regrouped (flat stacked : Reading) : Prop where
  lifelines : flat.diagram.lifelines = stacked.diagram.lifelines
  /-- The same fragments; some have more messages at their ends. -/
  fragments : List.Forall₂ ExtendedBy flat.diagram.fragments stacked.diagram.fragments
  messageCount : flat.diagram.messageCount = stacked.diagram.messageCount
  topLevel : stacked.diagram.topLevel.Sublist flat.diagram.topLevel
  skippedLines : flat.skippedLines = stacked.skippedLines
  unmatchedEnds : (stacked.about .unmatchedEnd).Sublist (flat.about .unmatchedEnd)
  unclosedFragments : (flat.about .unclosedFragment).Sublist (stacked.about .unclosedFragment)
  unclosedFragments_le : (flat.about .unclosedFragment).length ≤ 1
  implicitlyClosed : stacked.about .implicitlyClosed = []

/-- With stacked nesting in place of flat nesting messages move from the top level to the ends of
fragments, fewer ends are unmatched, and more fragments are left open. All else stays the same. -/
theorem read_regrouped (source : String) :
    Regrouped (read .flat source) (read .stacked source) := by
  have hdeepened := Deepened.foldl_step (lines source)
  obtain ⟨hwarnings, hskipped⟩ := warnings_foldl_flat_stacked (lines source)
  refine ⟨hdeepened.lifelines, hdeepened.fragments, ?_, hdeepened.topLevel, ?_, ?_, ?_, ?_,
    about_implicitlyClosed_read_stacked source⟩
  · rw [messageCount_read, messageCount_read]
  · unfold read
    rw [Progress.skippedLines_finish, Progress.skippedLines_finish, hskipped]
  · unfold read
    rw [Progress.about_finish _ (by decide), Progress.about_finish _ (by decide)]
    exact hwarnings.filter _
  · rw [about_unclosed_read, about_unclosed_read]
    exact hdeepened.unclosed.1
  · rw [about_unclosed_read]
    exact hdeepened.unclosed.2

end SequenceXmi.Mermaid
