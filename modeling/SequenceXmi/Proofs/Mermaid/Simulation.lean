import SequenceXmi.Mermaid.Reading
import SequenceXmi.Proofs.Text.Joining

/-! # Readers side by side

Two readers read the same lines, perhaps with different nesting, and perhaps from different places.
A relation between what they have read holds to the end if each of the things that a line can do
preserves it. That is what a `Simulation` says.

Main results: `Simulation.step` for one line, `Simulation.foldl_step` for all lines. -/

namespace SequenceXmi.Mermaid

open Text
open Text.Line (MovedBy)

/-- Whatever a line does, it preserves the relation `R` between a reader with nesting `n` and one
with nesting `m` that finds the line in the place given by `f`. -/
structure Simulation (n m : Nesting) (f : Span → Span) (R : Progress → Progress → Prop) :
    Prop where
  /-- The line is left out. -/
  skip {p q : Progress} (h : R p q) (t : Trouble) {line moved : Line}
    (hmoved : MovedBy f line moved) :
    R (p.warn (.skippedLine t line)) (q.warn (.skippedLine t moved))
  declare {p q : Progress} (h : R p q) (l : Lifeline) : R (p.declare l) (q.declare l)
  send {p q : Progress} (h : R p q) (m : Message) : R (p.send m) (q.send m)
  openFragment {p q : Progress} (h : R p q) (operator : Operator) (guard : String) (span : Span) :
    R (p.openFragment n operator guard span) (q.openFragment m operator guard (f span))
  closeFragment {p q : Progress} (h : R p q) (span : Span) :
    R (p.closeFragment span) (q.closeFragment (f span))

/-- Where lines stay in their places, the same is said of a line that is left out. -/
theorem skippedLine_of_movedBy_id (t : Trouble) {line moved : Line} (h : MovedBy id line moved) :
    Warning.skippedLine t moved = Warning.skippedLine t line := by
  simp [Warning.skippedLine, h.text, h.span]

namespace Simulation

variable {n m : Nesting} {f : Span → Span} {R : Progress → Progress → Prop} {p q : Progress}

theorem apply (sim : Simulation n m f R) (h : R p q) (span : Span) (st : Statement) :
    R (p.apply n span st) (q.apply m (f span) st) := by
  cases st with
  | header => exact h
  | participant aliasName displayName => exact sim.declare h _
  | message sender receiver text => exact sim.send h _
  | opening operator guard => exact sim.openFragment h operator guard span
  | closing => exact sim.closeFragment h span
  | note target text => exact sim.send h _

/-- What one line preserves. -/
theorem step (sim : Simulation n m f R) (h : R p q) {line moved : Line}
    (hmoved : MovedBy f line moved) : R (p.step n line) (q.step m moved) := by
  unfold Progress.step Line.isIgnorable
  rw [hmoved.text, hmoved.span]
  split
  · exact h
  · cases Statement.ofLine line.text with
    | error t => exact sim.skip h t hmoved
    | ok st => exact sim.apply h line.span st

/-- What all lines preserve. -/
theorem foldl_step (sim : Simulation n m f R) (h : R p q) {ls ms : List Line}
    (hmoved : List.Forall₂ (MovedBy f) ls ms) :
    R (ls.foldl (Progress.step n) p) (ms.foldl (Progress.step m) q) := by
  induction hmoved generalizing p q with
  | nil => exact h
  | cons hline _ ih => exact ih (sim.step h hline)

/-- Both readers find the lines in the same places. -/
theorem foldl_step_same (sim : Simulation n m id R) (h : R p q) (ls : List Line) :
    R (ls.foldl (Progress.step n) p) (ls.foldl (Progress.step m) q) :=
  sim.foldl_step h (List.forall₂_same.mpr fun _ _ => ⟨rfl, rfl⟩)

end Simulation

end SequenceXmi.Mermaid
