import SequenceXmi.Proofs.Conversion.Outcome
import SequenceXmi.Proofs.Mermaid.Inert
import SequenceXmi.Proofs.Mermaid.Reordering

/-! # Edits that leave the document as it is

Two ways to edit a text change no diagram: lines that say nothing are deleted, or lines that declare
participants move. What is read of the text afterwards is known from its lines
(`Mermaid.undisturbed_keepLines`, `Mermaid.unplaced_read_reordered`). With numbered identifiers a
conversion depends on the diagram alone, so the text is still converted to the same document, or
fails as before.

Main results: `read_keepLines` and `read_reordered`. -/

namespace SequenceXmi.Mermaid

open Text

/-! ## Lines are deleted -/

/-- Lines that say nothing can be deleted, any of them and wherever they stand. The diagram is the
same and so are the warnings about fragments; the warnings about lines that are left out are one for
each such line, and those of the deleted lines are missing. With numbered identifiers the text is
converted to the same document, or fails in the same way. -/
theorem read_keepLines (nesting : Nesting) (source : String) (keep : Nat → Bool)
    (h : ∀ line ∈ lines source, keep line.number = false → IsInert line) :
    (read nesting source).skippedLines = (lines source).filterMap skipped? ∧
      Undisturbed ((lines source).filter fun line => keep line.number) (read nesting source)
        (read nesting (keepLines keep source)) ∧
      ∀ s : Settings, s.nesting = nesting → s.deterministicIds → ∀ random other name,
        s.convert random (keepLines keep source) name = s.convert other source name := by
  have hundisturbed := undisturbed_keepLines nesting h
  refine ⟨skippedLines_read nesting source, hundisturbed, ?_⟩
  intro s hnesting hids random other name
  subst hnesting
  -- Warnings go to the user, and only the diagram to the exporter.
  exact Settings.convert_of_diagram_eq hids hundisturbed.diagram random other name

/-- A text with a header, a blank line, a comment and lines that are no statement, before, inside
and after its fragment, and with an end too many. -/
def noisyText : String :=
  "sequenceDiagram\nparticipant A\nfoo\nalt b\r\n %% c\nA->>: d\n\nA->>A: e\nend\nend\nbar"

theorem read_keepLines_noisy :
    let keep := fun n => !([1, 3, 5, 7, 11].contains n)
    keepLines keep noisyText = "participant A\nalt b\r\nA->>: d\nA->>A: e\nend\nend\n" ∧
      (∀ line ∈ lines noisyText, keep line.number = false → IsInert line) ∧
      Undisturbed ((lines noisyText).filter fun line => keep line.number) (read .flat noisyText)
        (read .flat (keepLines keep noisyText)) ∧
      ∀ random, ({ Settings.standard with deterministicIds := true }).convert random
          (keepLines keep noisyText) "Demo" =
        ({ Settings.standard with deterministicIds := true }).convert random noisyText "Demo" := by
  intro keep
  have hinert : ∀ line ∈ lines noisyText, keep line.number = false → IsInert line := by
    decide +kernel
  obtain ⟨-, hundisturbed, hconvert⟩ := read_keepLines .flat noisyText keep hinert
  refine ⟨by decide +kernel, hinert, hundisturbed, fun random => ?_⟩
  exact hconvert _ rfl rfl random random "Demo"

/-! ## Participants are declared elsewhere -/

/-- Participants can be declared anywhere, before, after and inside the fragments that name them.
Where the lines of a text change their order in this way only, the diagram is the same, and so are
the warnings, in the same order and the same words; only their places may differ. With numbered
identifiers the text is converted to the same document, or fails in the same way. -/
theorem read_reordered (nesting : Nesting) {ls ms : List String}
    (hls : ∀ l ∈ ls, '\n' ∉ l.toList) (h : Reordered ls ms) :
    (read nesting (written ms)).diagram = (read nesting (written ls)).diagram ∧
      (read nesting (written ms)).warnings.map (·.unplaced) =
        (read nesting (written ls)).warnings.map (·.unplaced) ∧
      ∀ s : Settings, s.nesting = nesting → s.deterministicIds → ∀ random other name,
        s.convert random (written ms) name = s.convert other (written ls) name := by
  have hread := unplaced_read_reordered nesting hls h
  have hdiagram := Reading.diagram_eq_of_unplaced hread
  refine ⟨hdiagram, Reading.map_unplaced_warnings hread, ?_⟩
  intro s hnesting hids random other name
  subst hnesting
  exact Settings.convert_of_diagram_eq hids hdiagram random other name

/-- Lines with two declarations of one alias, a fragment, an end too many and a line that is left
out. -/
def declaringLines : List String :=
  ["participant A as É", "participant A", " alt x\r", "A->>A: hi", "end", "end", "foo", "loop y"]

/-- The same lines, with one declaration inside a fragment and one at the end. -/
theorem read_reordered_declaring :
    let ms := [" alt x\r", "participant A as É", "A->>A: hi", "end", "end", "foo", "loop y",
      "participant A"]
    (∀ l ∈ declaringLines, '\n' ∉ l.toList) ∧ Reordered declaringLines ms ∧
      (read .flat (written ms)).diagram = (read .flat (written declaringLines)).diagram ∧
      (read .flat (written ms)).warnings.map (·.unplaced) =
        (read .flat (written declaringLines)).warnings.map (·.unplaced) := by
  intro ms
  have hls : ∀ l ∈ declaringLines, '\n' ∉ l.toList := by decide
  have hreordered : Reordered declaringLines ms := ⟨by decide +kernel, by decide +kernel⟩
  obtain ⟨hdiagram, hwarnings, -⟩ := read_reordered .flat hls hreordered
  exact ⟨hls, hreordered, hdiagram, hwarnings⟩

end SequenceXmi.Mermaid
