import SequenceXmi.Proofs.Mermaid.Simulation
import SequenceXmi.Proofs.Text.LineEnds

/-! # Reading lines in other places

Reading hands on the spans of lines and never looks at them. So if the same lines stand in other
places, the same is read, with the marks of its warnings in these places.

Main results: `foldl_step_mapSpans`, for any change of places, and `read_withReturns`, for the
change that other line ends make. -/

namespace SequenceXmi.Mermaid

open Text
open Text.Line (MovedBy)

/-! ## Change of places -/

/-- The mark in another place. -/
def Mark.mapSpan (f : Span → Span) (m : Mark) : Mark := { m with span := f m.span }

/-- The warning with its marks in other places. -/
def Warning.mapSpans (f : Span → Span) (w : Warning) : Warning :=
  { w with marks := w.marks.map (·.mapSpan f) }

/-- The open fragment with its first line in another place. -/
def OpenFragment.mapSpan (f : Span → Span) (o : OpenFragment) : OpenFragment :=
  { o with span := f o.span }

/-- The same has been read from lines in other places. -/
def Progress.mapSpans (f : Span → Span) (p : Progress) : Progress :=
  { p with
    opened := p.opened.map (·.mapSpan f)
    warnings := p.warnings.map (·.mapSpans f) }

/-- The same diagram, with its warnings about other places. -/
def Reading.mapSpans (f : Span → Span) (r : Reading) : Reading :=
  { r with warnings := r.warnings.map (·.mapSpans f) }

namespace Progress

variable (f : Span → Span) (p : Progress)

@[simp] theorem mapSpans_start : start.mapSpans f = start := rfl

/-! ## Steps -/

theorem mapSpans_warn (w : Warning) :
    (p.warn w).mapSpans f = (p.mapSpans f).warn (w.mapSpans f) := by
  simp [warn, mapSpans]

theorem mapSpans_declare (l : Lifeline) :
    (p.declare l).mapSpans f = (p.mapSpans f).declare l := rfl

/-- A message goes where the index of an open fragment says. -/
theorem mapSpans_send (m : Message) : (p.send m).mapSpans f = (p.mapSpans f).send m := by
  unfold send mapSpans
  cases p.opened <;> rfl

theorem mapSpans_push (operator : Operator) (guard : String) (span : Span) :
    (p.push operator guard span).mapSpans f = (p.mapSpans f).push operator guard (f span) := rfl

theorem mapSpans_openFragment (nesting : Nesting) (operator : Operator) (guard : String)
    (span : Span) :
    (p.openFragment nesting operator guard span).mapSpans f =
      (p.mapSpans f).openFragment nesting operator guard (f span) := by
  cases nesting with
  | stacked => exact mapSpans_push f p operator guard span
  | flat =>
    cases hp : p.opened with
    | nil =>
      have hmoved : (p.mapSpans f).opened = [] := by simp [mapSpans, hp]
      simp only [openFragment, hp, hmoved]
      exact mapSpans_push f p operator guard span
    | cons previous outer =>
      have hmoved : (p.mapSpans f).opened = previous.mapSpan f :: outer.map (·.mapSpan f) := by
        simp [mapSpans, hp]
      -- Both marks of the warning move: the one on the line, and the one on the open fragment.
      simp only [openFragment, hp, hmoved, mapSpans_push, mapSpans_warn]
      rfl

theorem mapSpans_closeFragment (span : Span) :
    (p.closeFragment span).mapSpans f = (p.mapSpans f).closeFragment (f span) := by
  cases hp : p.opened with
  | nil =>
    have hmoved : (p.mapSpans f).opened = [] := by simp [mapSpans, hp]
    simp only [closeFragment, hp, hmoved, mapSpans_warn]
    rfl
  | cons o outer => simp [closeFragment, mapSpans, hp]

/-- The same trouble with the line in its other place. -/
theorem mapSpans_skippedLine (t : Trouble) {line moved : Line} (h : MovedBy f line moved) :
    (Warning.skippedLine t line).mapSpans f = Warning.skippedLine t moved := by
  -- The message quotes the text, and the mark has the span of the moved line.
  simp [Warning.skippedLine, Warning.mapSpans, Warning.ofMessage, Warning.withTrouble,
    Warning.withMark, Warning.withAdvice, Mark.mapSpan, h.text, h.span]

/-- Whatever a line does, it does in the other place too. -/
theorem simulation_mapSpans (nesting : Nesting) :
    Simulation nesting nesting f (fun p q => p.mapSpans f = q) where
  skip := by
    rintro p - rfl t line moved hmoved
    rw [mapSpans_warn, mapSpans_skippedLine f t hmoved]
  declare := by
    rintro p - rfl l
    exact mapSpans_declare f p l
  send := by
    rintro p - rfl m
    exact mapSpans_send f p m
  openFragment := by
    rintro p - rfl operator guard span
    exact mapSpans_openFragment f p nesting operator guard span
  closeFragment := by
    rintro p - rfl span
    exact mapSpans_closeFragment f p span

/-- What all moved lines do. -/
theorem foldl_step_mapSpans {ls ms : List Line} (h : List.Forall₂ (MovedBy f) ls ms)
    (nesting : Nesting) :
    (ls.foldl (step nesting) p).mapSpans f = ms.foldl (step nesting) (p.mapSpans f) :=
  (simulation_mapSpans f nesting).foldl_step rfl h

/-! ## The end of the text -/

theorem mapSpans_unclosed? (o : OpenFragment) :
    (p.mapSpans f).unclosed? (o.mapSpan f) = (p.unclosed? o).map (·.mapSpans f) := by
  unfold unclosed?
  rw [Option.map_map]
  rfl

theorem finish_mapSpans : (p.mapSpans f).finish = p.finish.mapSpans f := by
  have hunclosed : (p.mapSpans f).opened.reverse.filterMap (p.mapSpans f).unclosed? =
      (p.opened.reverse.filterMap p.unclosed?).map (·.mapSpans f) := by
    show (p.opened.map (·.mapSpan f)).reverse.filterMap (p.mapSpans f).unclosed? = _
    rw [← List.map_reverse, List.filterMap_map, List.map_filterMap]
    apply List.filterMap_congr
    intro o _
    exact mapSpans_unclosed? f p o
  unfold finish Reading.mapSpans
  rw [hunclosed, List.map_append]
  rfl

end Progress

/-! ## Other line ends -/

/-- With a carriage return in front of every line feed the same is read, and every mark of a warning
moves on by as many bytes as there are line feeds in front of it, and is as long as before. -/
theorem read_withReturns (nesting : Nesting) (source : String) :
    read nesting (withReturns source) = (read nesting source).mapSpans (Span.pastReturns source) ∧
      ∀ span : Span,
        (span.pastReturns source).start = newlinesBefore span.start source.toList + span.start ∧
          (span.pastReturns source).length = span.length := by
  refine ⟨?_, fun span => ⟨rfl, Span.length_shift _ span⟩⟩
  have hrun := Progress.foldl_step_mapSpans (Span.pastReturns source) .start
    (movedBy_lines_withReturns source) nesting
  unfold read
  rw [← Progress.finish_mapSpans, hrun, Progress.mapSpans_start]

end SequenceXmi.Mermaid
