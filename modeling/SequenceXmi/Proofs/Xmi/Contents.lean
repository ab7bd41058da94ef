import SequenceXmi.Proofs.Xmi.Lifetime
import SequenceXmi.Proofs.Xmi.Outline
import SequenceXmi.Proofs.Xmi.Numbering

/-! # What a document is made of

Much of a document does not depend on the fragments that messages stand in. How many elements of a
name there are, which identifiers are used, and which messages, lifelines, operators and guards are
written is decided by the parts of the diagram, each counted by itself.

Main result: `SameParts.of_rearranged`. If the messages of a diagram are distributed in another way
over the same fragments, the document has the same parts. -/

namespace SequenceXmi.Xmi

open Xml (Element Document)
open IdSupply (issued)

/-! ## Parts of a document -/

/-- Whether an element is the specification of a guard. -/
def isSpecification (e : Element) : Bool := (kindOf e).1 == "uml:specification"

/-- The names of all elements, in document order. -/
def elementNames (doc : Document) : List String := (elements doc).map (·.name)

/-- Name and sort of each message, in document order. -/
def messagePairs (doc : Document) : List (Option String × Option String) :=
  ((elements doc).filter isMessage).map fun e => (e.attribute? nameKey, e.attribute? "messageSort")

/-- The operators of the combined fragments, in document order. -/
def operators (doc : Document) : List (Option String) :=
  ((elements doc).filter isCombined).map (·.attribute? "interactionOperator")

/-- The conditions of the guards, in document order. -/
def guards (doc : Document) : List (Option String) :=
  ((elements doc).filter isSpecification).map (·.attribute? "value")

/-- Two documents are made of the same parts; messages may stand in another order. -/
structure SameParts (a b : Document) : Prop where
  /-- There are as many elements of every name. -/
  names : ∀ name, (elementNames a).count name = (elementNames b).count name
  /-- The same identifiers are used. -/
  ids : ∀ i, i ∈ documentIds a ↔ i ∈ documentIds b
  messages : (messagePairs a).Perm (messagePairs b)
  lifelines : (elements a).filter isLifeline = (elements b).filter isLifeline
  operators : operators a = operators b
  guards : guards a = guards b

/-! ## Numbered items without their numbers -/

theorem map_snd_numbered {α : Type} (cost : α → Nat) (n : Nat) (xs : List α) :
    (numbered cost n xs).map (·.2) = xs := by
  induction xs generalizing n with
  | nil => rfl
  | cons x xs ih => rw [numbered_cons, List.map_cons, ih]

/-- What is made of items without their numbers does not depend on the numbers. -/
theorem map_numbered {α β : Type} (cost : α → Nat) (n : Nat) (f : α → β) (xs : List α) :
    ((numbered cost n xs).map fun p => f p.2) = xs.map f := by
  conv_rhs => rw [← map_snd_numbered cost n xs, List.map_map]
  rfl

theorem map_snd_diagramMessages (n : Nat) (d : Diagram) :
    (diagramMessages n d).map (·.2) = d.allMessages := by
  have hfragments : ((diagramFragments n d).flatMap fun p =>
      (fragmentMessages p.1 p.2).map (·.2)) = d.fragments.flatMap (·.messages) := by
    simp only [fragmentMessages, map_snd_numbered, List.flatMap_def, diagramFragments, map_numbered]
  rw [diagramMessages, List.map_append, List.map_flatMap, hfragments, topLevelMessages,
    map_snd_numbered]
  rfl

/-! ## Names -/

/-- If every item gives `a` elements of a name, and `b` more for each of its own items, then so do
all of them together. -/
theorem count_flatMap_of_count {α β γ : Type} [BEq γ] {f : α → List γ} {g : α → List β} {x : γ}
    {a b : Nat} (h : ∀ p, (f p).count x = a + (g p).length * b) (ps : List α) :
    (ps.flatMap f).count x = ps.length * a + (ps.flatMap g).length * b := by
  induction ps with
  | nil => simp
  | cons p ps ih =>
    rw [List.flatMap_cons, List.flatMap_cons, List.count_append, List.length_append, h, ih,
      List.length_cons, Nat.add_mul, Nat.add_mul]
    omega

/-- If every item gives the same elements, their names are counted once for each item. -/
theorem count_flatMap_const {α γ : Type} [BEq γ] (names : List γ) (x : γ) (ps : List α) :
    (ps.flatMap fun _ => names).count x = ps.length * names.count x := by
  induction ps with
  | nil => simp
  | cons p ps ih =>
    rw [List.flatMap_cons, List.count_append, ih, List.length_cons, Nat.add_mul]
    omega

/-- The names of the elements of a message. -/
def messageNames : List String := ["uml:message", "uml:fragment", "uml:fragment"]

/-- The names of the elements of a fragment without messages. -/
def fragmentNames : List String :=
  ["uml:fragment", "uml:operand", "uml:guard", "uml:specification"]

section Layouts

variable (s : Nat → String) (n : Nat) (d : Diagram) (modelName title : String)

theorem count_fragmentListing (covers : Covers) (f : Fragment) (name : String) :
    ((fragmentListing s covers n f).map (·.name)).count name =
      fragmentNames.count name + (fragmentMessages n f).length * messageNames.count name := by
  have hevents (ps : List (Nat × Message)) :
      ((eventElements s covers ps).map (·.name)).count name =
        ps.length * ["uml:fragment", "uml:fragment"].count name := by
    unfold eventElements
    rw [List.map_flatMap]
    exact count_flatMap_const ["uml:fragment", "uml:fragment"] name ps
  have hmessages (ps : List (Nat × Message)) :
      ((ps.map fun p => messageElement s p.1 p.2).map (·.name)).count name =
        ps.length * ["uml:message"].count name := by
    rw [List.map_map, List.map_eq_flatMap]
    exact count_flatMap_const ["uml:message"] name ps
  -- The two events of a message stand before all messages of the fragment.
  have hsplit : messageNames.count name =
      ["uml:message"].count name + ["uml:fragment", "uml:fragment"].count name := by
    rw [messageNames, ← List.singleton_append, List.count_append]
  have hlisting : (fragmentListing s covers n f).map (·.name) =
      fragmentNames ++ (eventElements s covers (fragmentMessages n f)).map (·.name) ++
        ((fragmentMessages n f).map fun p => messageElement s p.1 p.2).map (·.name) := by
    unfold fragmentListing
    rw [List.map_append]
    rfl
  rw [hlisting, List.count_append, List.count_append, hevents, hmessages, hsplit, Nat.mul_add]
  omega

/-- Every lifeline, message and fragment is written as elements of certain names. -/
theorem count_elementNames_layout (name : String) :
    (elementNames ⟨modelElement s n d modelName title⟩).count name =
      ["uml:Model", "uml:packagedElement"].count name +
        d.lifelines.length * ["uml:lifeline"].count name +
        d.messageCount * messageNames.count name +
        d.fragments.length * fragmentNames.count name := by
  have hnames : elementNames ⟨modelElement s n d modelName title⟩ =
      ["uml:Model", "uml:packagedElement"] ++
        ((diagramLifelines n d).flatMap fun _ => ["uml:lifeline"]) ++
        ((topLevelMessages n d).flatMap fun _ => messageNames) ++
        (diagramFragments n d).flatMap fun p =>
          (fragmentListing s (coversOf s n d) p.1 p.2).map (·.name) := by
    unfold elementNames
    rw [elements_layout, interactionListing, List.map_cons, List.map_cons, List.map_append,
      List.map_append, List.map_flatMap, List.map_flatMap, List.map_map, List.map_eq_flatMap]
    rfl
  -- Messages are counted where they stand: at top level, or in a fragment.
  have hmessages : d.messageCount = (topLevelMessages n d).length +
      ((diagramFragments n d).flatMap fun p => fragmentMessages p.1 p.2).length := by
    rw [← length_diagramMessages n d, diagramMessages, List.length_append]
  have hfragments := count_flatMap_of_count
    (fun p : Nat × Fragment => count_fragmentListing s p.1 (coversOf s n d) p.2 name)
    (diagramFragments n d)
  have hlifelineCount : (diagramLifelines n d).length = d.lifelines.length :=
    length_numbered _ _ _
  have hfragmentCount : (diagramFragments n d).length = d.fragments.length :=
    length_numbered _ _ _
  rw [hnames, List.count_append, List.count_append, List.count_append, count_flatMap_const,
    count_flatMap_const, hfragments, hmessages, hlifelineCount, hfragmentCount, Nat.add_mul]
  omega

/-! ## Messages, operators and guards -/

/-- Messages that give no element of a kind. -/
theorem flatMap_no_elements (ms : List (Nat × Message)) :
    (ms.flatMap fun _ => ([] : List Element)) = [] := by simp

theorem messagePairs_layout :
    messagePairs ⟨modelElement s n d modelName title⟩ =
      d.allMessages.map fun m => (some m.text, some (messageSort m.kind)) := by
  unfold messagePairs
  rw [filter_isMessage_layout, List.map_map, ← map_snd_diagramMessages n d, List.map_map]
  rfl

theorem operators_layout :
    operators ⟨modelElement s n d modelName title⟩ =
      d.fragments.map fun f => some f.operator.keyword := by
  have hcombined : (elements ⟨modelElement s n d modelName title⟩).filter isCombined =
      (diagramFragments n d).map fun p => combinedElement s (coversOf s n d) p.1 p.2 := by
    have hone := List.map_eq_flatMap
      (f := fun p : Nat × Fragment => combinedElement s (coversOf s n d) p.1 p.2)
      (l := diagramFragments n d)
    simp [elements_layout, interactionListing, topLevelListing, fragmentListing, eventElements,
      List.filter_flatMap, List.filter_map, isCombined, occurrenceType, combinedType,
      Function.comp_def, flatMap_no_elements, hone]
  unfold operators
  rw [hcombined, List.map_map]
  exact map_numbered fragmentCost _ (fun f => some f.operator.keyword) d.fragments

theorem guards_layout :
    guards ⟨modelElement s n d modelName title⟩ = d.fragments.map fun f => some f.guard := by
  have hspecification : (elements ⟨modelElement s n d modelName title⟩).filter isSpecification =
      (diagramFragments n d).map fun p => specificationElement p.2.guard := by
    have hone := List.map_eq_flatMap
      (f := fun p : Nat × Fragment => specificationElement p.2.guard) (l := diagramFragments n d)
    simp [elements_layout, interactionListing, topLevelListing, fragmentListing, eventElements,
      List.filter_flatMap, List.filter_map, isSpecification, Function.comp_def,
      flatMap_no_elements, hone]
  unfold guards
  rw [hspecification, List.map_map]
  exact map_numbered fragmentCost _ (fun f => some f.guard) d.fragments

/-! ## Identifiers -/

theorem mem_idsOf_of_mem_ownIds {e : Element} {i : String} (h : i ∈ ownIds e) : i ∈ idsOf e := by
  obtain ⟨a, ha, rfl⟩ := List.mem_map.mp h
  obtain ⟨hmem, hkey⟩ := List.mem_filter.mp ha
  apply List.mem_map_of_mem
  apply List.mem_filter.mpr
  rcases (by simpa using hkey : a.1 = idKey ∨ a.1 = "represents") with hid | hrepresents
  · exact ⟨hmem, by rw [hid]; rfl⟩
  · exact ⟨hmem, by rw [hrepresents]; rfl⟩

/-- The identifiers in a document are those that its export draws. -/
theorem mem_documentIds_layout (hd : Resolved d) {i : String} :
    i ∈ documentIds ⟨modelElement s n d modelName title⟩ ↔
      i ∈ issued ⟨s, n⟩ ⟨s, documentEnd n d⟩ := by
  constructor
  · exact mem_issued_of_mem_documentIds hd
  · intro h
    obtain ⟨j, hj, rfl⟩ := List.mem_map.mp h
    -- Each number that is drawn is given to an element.
    have hown : s j ∈ (elements ⟨modelElement s n d modelName title⟩).flatMap ownIds := by
      rw [ownIds_layout]
      exact List.mem_map_of_mem ((documentNumbers_perm n d).mem_iff.mpr hj)
    obtain ⟨e, he, hi⟩ := List.mem_flatMap.mp hown
    exact List.mem_flatMap.mpr ⟨e, he, mem_idsOf_of_mem_ownIds hi⟩

end Layouts

/-! ## The same parts in another arrangement -/

/-- The same lifelines, messages and fragments; messages may stand in other fragments. -/
structure Rearranged (d e : Diagram) : Prop where
  lifelines : d.lifelines = e.lifelines
  messages : d.allMessages.Perm e.allMessages
  operators : d.fragments.map (·.operator) = e.fragments.map (·.operator)
  guards : d.fragments.map (·.guard) = e.fragments.map (·.guard)

namespace Rearranged

variable {d e : Diagram}

theorem messageCount (h : Rearranged d e) : d.messageCount = e.messageCount := by
  rw [d.messageCount_eq_length, e.messageCount_eq_length, h.messages.length_eq]

theorem fragmentCount (h : Rearranged d e) : d.fragments.length = e.fragments.length := by
  have hlength := congrArg List.length h.operators
  rwa [List.length_map, List.length_map] at hlength

theorem declaresEnds (h : Rearranged d e) (m : Message) : DeclaresEnds d m ↔ DeclaresEnds e m := by
  unfold DeclaresEnds Declares
  rw [h.lifelines]

/-- Either diagram has a document if and only if the other one has. -/
theorem resolved_iff (h : Rearranged d e) : Resolved d ↔ Resolved e := by
  rw [Xmi.resolved_iff, Xmi.resolved_iff]
  simp only [h.declaresEnds, h.messages.mem_iff]

theorem documentEnd (h : Rearranged d e) (n : Nat) : documentEnd n d = documentEnd n e := by
  rw [documentEnd_eq_count, documentEnd_eq_count, h.lifelines, h.messageCount, h.fragmentCount]

end Rearranged

/-- Two arrangements of the same parts have documents with the same parts. -/
theorem SameParts.of_rearranged {d e : Diagram} (h : Rearranged d e) (hd : Resolved d)
    (s : Nat → String) (n : Nat) (modelName title : String) :
    SameParts ⟨modelElement s n d modelName title⟩ ⟨modelElement s n e modelName title⟩ := by
  constructor
  · intro name
    rw [count_elementNames_layout, count_elementNames_layout, h.lifelines, h.messageCount,
      h.fragmentCount]
  · intro i
    rw [mem_documentIds_layout _ _ _ _ _ hd,
      mem_documentIds_layout _ _ _ _ _ (h.resolved_iff.mp hd), h.documentEnd]
  · rw [messagePairs_layout, messagePairs_layout]
    exact h.messages.map _
  · rw [filter_isLifeline_layout, filter_isLifeline_layout, diagramLifelines, diagramLifelines,
      h.lifelines]
  · have hkeywords := congrArg (List.map fun o : Operator => some o.keyword) h.operators
    rw [List.map_map, List.map_map] at hkeywords
    rw [operators_layout, operators_layout]
    exact hkeywords
  · have hconditions := congrArg (List.map some) h.guards
    rw [List.map_map, List.map_map] at hconditions
    rw [guards_layout, guards_layout]
    exact hconditions

end SequenceXmi.Xmi
