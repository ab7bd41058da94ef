import SequenceXmi.Conversion
import SequenceXmi.Proofs.Xmi.Outcome

/-! # The outcome of a conversion

A conversion of a text ends as the export of its diagram does. It gives a document if and only if
every message names declared participants, and it fails in one way only: it names the first message
that does not. The supply of identifiers and the name of the interaction play no part in it. -/

namespace SequenceXmi

open Xmi (Exporter Declares DeclaresEnds Resolved IsFirstCulprit)

/-! ## Resolved diagrams -/

instance (d : Diagram) (aliasName : String) : Decidable (Declares d aliasName) :=
  List.decidableBEx _ d.lifelines

instance (d : Diagram) (m : Message) : Decidable (DeclaresEnds d m) :=
  inferInstanceAs (Decidable (_ ∧ _))

instance (d : Diagram) : Decidable (Resolved d) :=
  decidable_of_iff (∀ m ∈ d.allMessages, DeclaresEnds d m) Xmi.resolved_iff.symm

/-! ## Documents and texts -/

namespace Settings

variable (s : Settings) (random : IdSupply) (name : String)

/-- The exporter of a document. -/
def exporter : Exporter := (Exporter.ofIds (s.idSupply random)).withModelName s.modelName

theorem document_eq (d : Diagram) :
    s.document random d name =
      ((s.exporter random).exportDiagram d name).1.mapError .unresolved := rfl

/-- A document is one that is exported. -/
theorem exportDiagram_of_document {d : Diagram} {doc : Xml.Document}
    (h : s.document random d name = .ok doc) :
    ((s.exporter random).exportDiagram d name).1 = .ok doc := by
  rw [document_eq] at h
  cases hresult : ((s.exporter random).exportDiagram d name).1 with
  | error u =>
    rw [hresult] at h
    cases h
  | ok doc' =>
    rw [hresult] at h
    rw [Except.ok.inj h]

theorem document_of_resolved {d : Diagram} (h : Resolved d) :
    ∃ doc, s.document random d name = .ok doc := by
  obtain ⟨doc, hdoc⟩ := (s.exporter random).exportDiagram_of_resolved name h
  exact ⟨doc, by rw [document_eq, hdoc]; rfl⟩

theorem document_of_not_resolved {d : Diagram} (h : ¬ Resolved d) :
    ∃ u, IsFirstCulprit d u ∧ s.document random d name = .error (.unresolved u) := by
  obtain ⟨u, hu, herror⟩ := (s.exporter random).exportDiagram_of_not_resolved name h
  exact ⟨u, hu, by rw [document_eq, herror]; rfl⟩

/-- A text is converted through its document. -/
theorem convert_of_document {source : String} {doc : Xml.Document}
    (h : s.document random (s.read source).diagram name = .ok doc) :
    s.convert random source name = .ok doc.text := by
  unfold convert
  rw [h]
  rfl

theorem exists_document_of_convert {source text : String}
    (h : s.convert random source name = .ok text) :
    ∃ doc, s.document random (s.read source).diagram name = .ok doc ∧ doc.text = text := by
  unfold convert at h
  cases hdoc : s.document random (s.read source).diagram name with
  | error f =>
    rw [hdoc] at h
    cases h
  | ok doc =>
    rw [hdoc] at h
    exact ⟨doc, rfl, Except.ok.inj h⟩

/-- A conversion gives a document, or names the first message with an end that is not declared. -/
theorem convert_cases (source : String) :
    (Resolved (s.read source).diagram ∧ ∃ text, s.convert random source name = .ok text) ∨
      (¬ Resolved (s.read source).diagram ∧ ∃ u, IsFirstCulprit (s.read source).diagram u ∧
        s.convert random source name = .error (.unresolved u)) := by
  by_cases h : Resolved (s.read source).diagram
  · left
    obtain ⟨doc, hdoc⟩ := s.document_of_resolved random name h
    exact ⟨h, doc.text, s.convert_of_document random name hdoc⟩
  · right
    obtain ⟨u, hu, herror⟩ := s.document_of_not_resolved random name h
    refine ⟨h, u, hu, ?_⟩
    unfold convert
    rw [herror]
    rfl

theorem exists_convert_eq_ok_iff {source : String} :
    (∃ text, s.convert random source name = .ok text) ↔ Resolved (s.read source).diagram := by
  rcases s.convert_cases random name source with ⟨h, hok⟩ | ⟨h, u, -, herror⟩
  · exact iff_of_true hok h
  · apply iff_of_false _ h
    rintro ⟨text, htext⟩
    rw [herror] at htext
    cases htext

/-- A conversion that fails names the first message with an end that is not declared. -/
theorem isFirstCulprit_of_convert {source : String} {u : Xmi.Unresolved}
    (h : s.convert random source name = .error (.unresolved u)) :
    IsFirstCulprit (s.read source).diagram u := by
  rcases s.convert_cases random name source with ⟨-, text, hok⟩ | ⟨-, v, hv, herror⟩
  · rw [hok] at h
    cases h
  · rw [herror] at h
    obtain rfl := Failure.unresolved.inj (Except.error.inj h)
    exact hv

variable {s random name}

/-- A diagram has no document only if a message has an end that is not declared. -/
theorem document_eq_error {d : Diagram} {f : Failure}
    (h : s.document random d name = .error f) : ∃ u, f = .unresolved u := by
  unfold document at h
  cases hresult : (s.documentFrom (s.idSupply random) d name).1 with
  | ok document =>
    rw [hresult] at h
    cases h
  | error u =>
    rw [hresult] at h
    exact ⟨u, (Except.error.inj h).symm⟩

/-! ## Numbered identifiers -/

/-- Numbered identifiers do not come from the random supply. -/
theorem document_of_deterministicIds (hids : s.deterministicIds = true) (random other : IdSupply)
    (d : Diagram) (name : String) : s.document random d name = s.document other d name := by
  unfold document idSupply
  rw [if_pos hids, if_pos hids]

/-- With numbered identifiers a conversion depends on nothing but the diagram of the text. -/
theorem convert_of_diagram_eq (hids : s.deterministicIds = true) {source source' : String}
    (h : (s.read source).diagram = (s.read source').diagram) (random other : IdSupply)
    (name : String) : s.convert random source name = s.convert other source' name := by
  unfold convert
  rw [h, document_of_deterministicIds hids random other]

/-- Standard settings with numbered identifiers. -/
def numbered : Settings := { standard with deterministicIds := true }

end Settings

end SequenceXmi
