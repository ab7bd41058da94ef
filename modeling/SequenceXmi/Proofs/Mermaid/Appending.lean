import SequenceXmi.Proofs.Mermaid.Reports
import SequenceXmi.Proofs.Mermaid.Routing
import SequenceXmi.Proofs.Mermaid.Spans

/-! # Reading joined texts

A text that leaves no fragment open does not reach into what is read after it. What the lines after
it add is what they give by themselves, behind what has been read (`Progress.followedBy`): their
fragments are listed further down, and their places are further on.

Main result: `read_append`. -/

namespace SequenceXmi.Mermaid

open Text

/-! ## One after the other -/

/-- The open fragment, where `n` other fragments are listed first. -/
def OpenFragment.behind (n : Nat) (o : OpenFragment) : OpenFragment :=
  { o with index := n + o.index }

/-- What has been read first, and then something else. Only fragments of the latter are open. -/
def Progress.followedBy (first p : Progress) : Progress where
  lifelines := first.lifelines ++ p.lifelines
  topLevel := first.topLevel ++ p.topLevel
  fragments := first.fragments ++ p.fragments
  opened := p.opened.map (·.behind first.fragments.length)
  warnings := first.warnings ++ p.warnings

/-- The diagrams of two readings as one, and all their warnings. -/
def Reading.followedBy (first r : Reading) : Reading where
  diagram :=
    { lifelines := first.diagram.lifelines ++ r.diagram.lifelines
      topLevel := first.diagram.topLevel ++ r.diagram.topLevel
      fragments := first.diagram.fragments ++ r.diagram.fragments }
  warnings := first.warnings ++ r.warnings

namespace Progress

variable (first p : Progress)

theorem followedBy_start (h : first.opened = []) : first.followedBy start = first := by
  obtain ⟨lifelines, topLevel, fragments, opened, warnings⟩ := first
  obtain rfl : opened = [] := h
  simp [followedBy, start]

/-! ### Steps -/

theorem followedBy_warn (w : Warning) :
    first.followedBy (p.warn w) = (first.followedBy p).warn w := by
  simp [followedBy, warn]

theorem followedBy_declare (l : Lifeline) :
    first.followedBy (p.declare l) = (first.followedBy p).declare l := by
  simp [followedBy, declare]

/-- A message goes to the same fragment, further down the list. -/
theorem followedBy_send (m : Message) :
    first.followedBy (p.send m) = (first.followedBy p).send m := by
  cases hp : p.opened with
  | nil => simp [send, followedBy, hp]
  | cons o outer => simp [send, followedBy, hp, OpenFragment.behind, modify_append_add]

theorem followedBy_push (operator : Operator) (guard : String) (span : Span) :
    first.followedBy (p.push operator guard span) =
      (first.followedBy p).push operator guard span := by
  simp [followedBy, push, OpenFragment.behind]

theorem followedBy_openFragment (nesting : Nesting) (operator : Operator) (guard : String)
    (span : Span) :
    first.followedBy (p.openFragment nesting operator guard span) =
      (first.followedBy p).openFragment nesting operator guard span := by
  cases nesting with
  | stacked => exact followedBy_push first p operator guard span
  | flat =>
    cases hp : p.opened with
    | nil =>
      have hopened : (first.followedBy p).opened = [] := by simp [followedBy, hp]
      simp only [openFragment, hp, hopened]
      exact followedBy_push first p operator guard span
    | cons previous outer =>
      have hopened : (first.followedBy p).opened =
          previous.behind first.fragments.length ::
            outer.map (·.behind first.fragments.length) := by
        simp [followedBy, hp]
      simp only [openFragment, hp, hopened, followedBy_push, followedBy_warn]
      rfl

theorem followedBy_closeFragment (span : Span) :
    first.followedBy (p.closeFragment span) = (first.followedBy p).closeFragment span := by
  cases hp : p.opened with
  | nil =>
    have hopened : (first.followedBy p).opened = [] := by simp [followedBy, hp]
    simp only [closeFragment, hp, hopened, followedBy_warn]
  | cons o outer => simp [closeFragment, followedBy, hp]

/-- Whatever a line does, it does behind other lines too. -/
theorem simulation_followedBy (nesting : Nesting) :
    Simulation nesting nesting id (fun p q => first.followedBy p = q) where
  skip := by
    rintro p - rfl t line moved hmoved
    rw [followedBy_warn, skippedLine_of_movedBy_id t hmoved]
  declare := by
    rintro p - rfl l
    exact followedBy_declare first p l
  send := by
    rintro p - rfl m
    exact followedBy_send first p m
  openFragment := by
    rintro p - rfl operator guard span
    exact followedBy_openFragment first p nesting operator guard span
  closeFragment := by
    rintro p - rfl span
    exact followedBy_closeFragment first p span

theorem foldl_step_followedBy (nesting : Nesting) (ls : List Line) :
    first.followedBy (ls.foldl (step nesting) p) =
      ls.foldl (step nesting) (first.followedBy p) :=
  (simulation_followedBy first nesting).foldl_step_same rfl ls

/-! ### The end of the text -/

theorem unclosed?_followedBy (o : OpenFragment) :
    (first.followedBy p).unclosed? (o.behind first.fragments.length) = p.unclosed? o := by
  simp [unclosed?, followedBy, OpenFragment.behind, List.getElem?_append_right]

/-- The warnings about open fragments still come last. -/
theorem finish_followedBy (h : first.opened = []) :
    (first.followedBy p).finish = first.finish.followedBy p.finish := by
  have hunclosed : (first.followedBy p).opened.reverse.filterMap (first.followedBy p).unclosed? =
      p.opened.reverse.filterMap p.unclosed? := by
    show (p.opened.map (·.behind first.fragments.length)).reverse.filterMap _ = _
    rw [← List.map_reverse, List.filterMap_map]
    exact List.filterMap_congr fun o _ => unclosed?_followedBy first p o
  have hfirst : first.finish.warnings = first.warnings := by simp [finish, h]
  unfold Reading.followedBy
  rw [hfirst]
  unfold finish
  rw [hunclosed]
  simp [followedBy]

end Progress

/-! ## No fragment is left open -/

/-- Every open fragment is listed. -/
theorem Routed.index_lt {nesting : Nesting} {ss : List Statement} {p : Progress}
    (h : Routed nesting ss p) {o : OpenFragment} (ho : o ∈ p.opened) :
    o.index < p.fragments.length := by
  have hindex : o.index ∈ (openStack nesting ss).map (rank ss) := by
    rw [← h.opened]
    exact List.mem_map_of_mem ho
  obtain ⟨q, hq, hrank⟩ := List.mem_map.mp hindex
  obtain ⟨hlt, hopens⟩ := of_mem_openStack hq
  rw [← hrank, h.fragments]
  exact Nat.lt_of_lt_of_eq (rank_lt hlt hopens) length_fragmentsOf.symm

/-- A text that is not reported for an open fragment leaves none open. -/
theorem opened_eq_nil_of_about {nesting : Nesting} {source : String}
    (h : (read nesting source).about .unclosedFragment = []) :
    ((lines source).foldl (Progress.step nesting) .start).opened = [] := by
  let p := (lines source).foldl (Progress.step nesting) .start
  have hreported : p.opened.reverse.filterMap p.unclosed? = [] :=
    (about_unclosed_read nesting source).symm.trans h
  have hnone : ∀ o ∈ p.opened, False := by
    intro o ho
    have hlt : o.index < p.fragments.length :=
      (Routed.foldl_step nesting (lines source)).index_lt ho
    have hunclosed := List.filterMap_eq_nil_iff.mp hreported o (List.mem_reverse.mpr ho)
    -- A listed fragment has an operator to report.
    simp only [Progress.unclosed?, Option.map_eq_none_iff, List.getElem?_eq_none_iff] at hunclosed
    omega
  exact List.eq_nil_iff_forall_not_mem.mpr hnone

/-! ## Reading -/

/-- A text that ends its last line and leaves no fragment open can be read first, and what follows
it by itself. -/
theorem read_append (nesting : Nesting) {s : String} (t : String) (hends : EndsLine s.toList)
    (hclosed : (read nesting s).about .unclosedFragment = []) :
    read nesting (s ++ t) =
      (read nesting s).followedBy
        ((read nesting t).mapSpans (Span.shift (byteLength s.toList))) := by
  obtain ⟨after, hlines, hmoved⟩ := lines_append hends t
  let first := (lines s).foldl (Progress.step nesting) .start
  let rest := (lines t).foldl (Progress.step nesting) .start
  have hopened : first.opened = [] := opened_eq_nil_of_about hclosed
  have hafter : after.foldl (Progress.step nesting) .start =
      rest.mapSpans (Span.shift (byteLength s.toList)) :=
    (Progress.foldl_step_mapSpans _ .start hmoved nesting).symm
  have hrun : (lines (s ++ t)).foldl (Progress.step nesting) .start =
      first.followedBy (rest.mapSpans (Span.shift (byteLength s.toList))) := by
    rw [hlines, List.foldl_append, ← hafter, Progress.foldl_step_followedBy,
      Progress.followedBy_start first hopened]
  unfold read
  rw [hrun, Progress.finish_followedBy first _ hopened, Progress.finish_mapSpans]

/-- A text with a fragment, and with an end too many. -/
def closedText : String := "alt é\r\n  A->>B: one\nend\nend\n"

/-- A text that leaves a fragment open. -/
def openText : String := "loop\nB->>A: two\nthree"

theorem read_append_closed_open :
    EndsLine closedText.toList ∧ (read .stacked closedText).about .unclosedFragment = [] ∧
      read .stacked (closedText ++ openText) =
        (read .stacked closedText).followedBy
          ((read .stacked openText).mapSpans (Span.shift (byteLength closedText.toList))) := by
  have hends : EndsLine closedText.toList := by decide
  have hclosed : (read .stacked closedText).about .unclosedFragment = [] := by decide +kernel
  exact ⟨hends, hclosed, read_append .stacked openText hends hclosed⟩

end SequenceXmi.Mermaid
