import SequenceXmi.Proofs.Conversion.Outcome
import SequenceXmi.Proofs.Mermaid.Comparison
import SequenceXmi.Proofs.Xmi.Contents

/-! # Conversion and nesting

The way of nesting decides which fragments messages go to, and nothing else that matters for the
outcome of a conversion: a text is converted with flat nesting if and only if it is converted with
stacked nesting, and both documents are made of the same parts.

Main result: `convert_flat_stacked`. The two diagrams of a text are arrangements of the same parts
(`rearranged_read`), and what follows from this is said in `SameParts`. -/

namespace SequenceXmi

open Xmi (Rearranged SameParts Resolved)
open Mermaid (Nesting ExtendedBy read)

namespace Mermaid

theorem ExtendedBy.map_guard {fs gs : List Fragment} (h : List.Forall₂ ExtendedBy fs gs) :
    fs.map (·.guard) = gs.map (·.guard) := by
  induction h with
  | nil => rfl
  | cons hfg _ ih => rw [List.map_cons, List.map_cons, hfg.guard, ih]

/-- The messages of a text are the same with every nesting; only their order differs. -/
theorem perm_allMessages_read (n m : Nesting) (source : String) :
    (read n source).diagram.allMessages.Perm (read m source).diagram.allMessages := by
  rw [diagram_read, diagram_read]
  exact (perm_allMessages_route n _).trans (perm_allMessages_route m _).symm

/-- With either nesting a text has the same parts. -/
theorem rearranged_read (source : String) :
    Rearranged (read .flat source).diagram (read .stacked source).diagram := by
  have hdeepened := Deepened.foldl_step (Text.lines source)
  exact ⟨hdeepened.lifelines, perm_allMessages_read .flat .stacked source,
    ExtendedBy.map_operator hdeepened.fragments, ExtendedBy.map_guard hdeepened.fragments⟩

end Mermaid

namespace Settings

/-- The settings with another way of nesting. -/
def withNesting (s : Settings) (nesting : Nesting) : Settings := { s with nesting }

variable {s : Settings}

/-- The documents of two arrangements of the same parts. -/
theorem sameParts_document {random : IdSupply} {d e : Diagram} {name : String}
    {a b : Xml.Document} (h : Rearranged d e) (ha : s.document random d name = .ok a)
    (hb : s.document random e name = .ok b) : SameParts a b := by
  have hexported := s.exportDiagram_of_document random name ha
  have hexported' := s.exportDiagram_of_document random name hb
  obtain ⟨hd, rfl, -⟩ := Xmi.Exporter.of_exportDiagram_ok
    (Prod.ext hexported rfl : (s.exporter random).exportDiagram d name = (.ok a, _))
  obtain ⟨-, rfl, -⟩ := Xmi.Exporter.of_exportDiagram_ok
    (Prod.ext hexported' rfl : (s.exporter random).exportDiagram e name = (.ok b, _))
  exact SameParts.of_rearranged h hd _ _ _ _

/-- With numbered identifiers a text is converted with flat nesting if and only if it is converted
with stacked nesting. Then both texts are those of documents that are made of the same parts. -/
theorem convert_flat_stacked (s : Settings) (hids : s.deterministicIds = true)
    (random other : IdSupply) (source name : String) :
    let flat := s.withNesting .flat
    let stacked := s.withNesting .stacked
    ((∃ text, flat.convert random source name = .ok text) ↔
      ∃ text, stacked.convert other source name = .ok text) ∧
    ∀ text text', flat.convert random source name = .ok text →
      stacked.convert other source name = .ok text' →
      ∃ a b, flat.document random (flat.read source).diagram name = .ok a ∧ a.text = text ∧
        stacked.document other (stacked.read source).diagram name = .ok b ∧ b.text = text' ∧
        SameParts a b := by
  intro flat stacked
  have hrearranged : Rearranged (flat.read source).diagram (stacked.read source).diagram :=
    Mermaid.rearranged_read source
  refine ⟨?_, ?_⟩
  · rw [flat.exists_convert_eq_ok_iff, stacked.exists_convert_eq_ok_iff]
    exact hrearranged.resolved_iff
  · intro text text' htext htext'
    obtain ⟨a, ha, hatext⟩ := flat.exists_document_of_convert random name htext
    obtain ⟨b, hb, hbtext⟩ := stacked.exists_document_of_convert other name htext'
    -- Of the settings only those matter here that both have in common.
    have hsame : flat.document random (stacked.read source).diagram name = .ok b := by
      rw [← hb]
      exact document_of_deterministicIds (s := stacked) hids random other _ name
    exact ⟨a, b, ha, hatext, hb, hbtext, sameParts_document hrearranged ha hsame⟩

/-- A text with a fragment inside another one, and a message after the inner one. -/
def nestedText : String :=
  "participant A\nparticipant B\nalt x\nA->>B: one\nloop y\nB->>A: two\nend\nA->>B: three\nend"

/-- Both are converted, though the last message does not stand in the same place. -/
theorem convert_flat_stacked_nestedText :
    numbered.deterministicIds = true ∧ ∃ text text' a b,
      (numbered.withNesting .flat).convert .sequential nestedText "D" = .ok text ∧
        (numbered.withNesting .stacked).convert .sequential nestedText "D" = .ok text' ∧
        a.text = text ∧ b.text = text' ∧ SameParts a b ∧
        Xmi.elementNames a ≠ Xmi.elementNames b := by
  let flat := numbered.withNesting .flat
  let stacked := numbered.withNesting .stacked
  obtain ⟨hiff, hparts⟩ :=
    convert_flat_stacked numbered rfl .sequential .sequential nestedText "D"
  have hresolved : Resolved (flat.read nestedText).diagram := by decide +kernel
  obtain ⟨text, htext⟩ := (flat.exists_convert_eq_ok_iff .sequential "D").mpr hresolved
  obtain ⟨text', htext'⟩ := hiff.mp ⟨text, htext⟩
  obtain ⟨a, b, ha, hatext, hb, hbtext, hsame⟩ := hparts text text' htext htext'
  have hdiffer :
      (flat.document .sequential (flat.read nestedText).diagram "D").map Xmi.elementNames ≠
        (stacked.document .sequential (stacked.read nestedText).diagram "D").map
          Xmi.elementNames := by
    decide +kernel
  refine ⟨rfl, text, text', a, b, htext, htext', hatext, hbtext, hsame, ?_⟩
  intro hnames
  apply hdiffer
  rw [ha, hb]
  exact congrArg Except.ok hnames

end Settings

end SequenceXmi
