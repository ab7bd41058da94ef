import Mathlib.Data.List.Perm.Basic
import SequenceXmi.Proofs.Xmi.Layout

/-! # The elements of a document

The layout of a document is a tree; here it is listed in document order. Every lifeline and every
message appears in the list with the number of identifiers drawn before it, wherever its element
stands: a message of a fragment comes after the events of the whole fragment.

Main results:

* `elements_layout`: the list;
* `ownIds_layout_perm`: the identifiers that elements claim for themselves are, in some order, those
  that the export draws;
* `filter_messages_layout` and its companions: the elements of each kind. -/

namespace SequenceXmi.Xmi

open Xml (Element Document)
open Xml.Element (preorder preorderAll preorder_eq preorderAll_append)

/-- All elements of a document, in document order. -/
def elements (doc : Document) : List Element := doc.root :: doc.root.preorder

/-! ## Numbered items -/

section Numbered

variable {α β : Type} (cost : α → Nat)

/-- The items of a list, each with the number from which it takes its own. -/
def numbered (n : Nat) (xs : List α) : List (Nat × α) := allot cost Prod.mk n xs

@[simp] theorem numbered_nil (n : Nat) : numbered cost n [] = [] := rfl

@[simp] theorem numbered_cons (n : Nat) (x : α) (xs : List α) :
    numbered cost n (x :: xs) = (n, x) :: numbered cost (n + cost x) xs := rfl

/-- Placing items is numbering them first. -/
theorem allot_eq_map_numbered (place : Nat → α → β) (n : Nat) (xs : List α) :
    allot cost place n xs = (numbered cost n xs).map fun p => place p.1 p.2 := by
  rw [numbered, map_allot]

/-- Items whose numbers are consecutive use up a whole range, however each orders its own. -/
theorem flatMap_numbered_perm {nums : Nat → α → List Nat}
    (h : ∀ k x, (nums k x).Perm (List.range' k (cost x))) (n : Nat) (xs : List α) :
    ((numbered cost n xs).flatMap fun p => nums p.1 p.2).Perm (List.range' n (total cost xs)) := by
  induction xs generalizing n with
  | nil => exact .refl _
  | cons x xs ih =>
    have happend := List.range'_append_1 (s := n) (m := cost x) (n := total cost xs)
    rw [numbered_cons, List.flatMap_cons, total_cons, ← happend]
    exact (h n x).append (ih (n + cost x))

end Numbered

/-! ## Lists of elements -/

/-- Elements without children have nothing below them. -/
theorem preorderAll_of_leaves {es : List Element} (h : ∀ e ∈ es, e.children = []) :
    preorderAll es = es := by
  induction es with
  | nil => rfl
  | cons e es ih =>
    have he : e.preorder = [] := by rw [preorder_eq, h e List.mem_cons_self]; rfl
    rw [preorderAll, he, ih fun e he => h e (List.mem_cons_of_mem _ he)]
    rfl

theorem preorderAll_flatten (ess : List (List Element)) :
    preorderAll ess.flatten = (ess.map preorderAll).flatten := by
  induction ess with
  | nil => rfl
  | cons es ess ih => simp [preorderAll_append, ih]

/-! ## The list of a layout -/

section Listing

variable (s : Nat → String) (covers : Covers)

/-- The events of messages with these numbers. -/
def eventElements (ms : List (Nat × Message)) : List Element :=
  ms.flatMap fun p => [sendElement s covers p.1 p.2, receiveElement s covers p.1 p.2]

/-- The messages of a fragment, numbered. -/
def fragmentMessages (n : Nat) (f : Fragment) : List (Nat × Message) :=
  numbered messageCost (n + 3) f.messages

/-- The specification of a guard. -/
def specificationElement (condition : String) : Element :=
  ⟨"uml:specification", [("value", condition)], []⟩

theorem operandElement_children (n : Nat) (f : Fragment) :
    (operandElement s covers n f).children =
      guardElement (s (n + 2)) f.guard :: eventElements s covers (fragmentMessages n f) := by
  simp [operandElement, allot_eq_map_numbered, eventElements, fragmentMessages, partsOf,
    List.flatMap_map]

theorem fragmentElements_eq (n : Nat) (f : Fragment) :
    fragmentElements s covers n f = combinedElement s covers n f ::
      (fragmentMessages n f).map fun p => messageElement s p.1 p.2 := by
  simp [fragmentElements, allot_eq_map_numbered, fragmentMessages, partsOf, Function.comp_def]

theorem preorderAll_eventElements (ms : List (Nat × Message)) :
    preorderAll (eventElements s covers ms) = eventElements s covers ms := by
  apply preorderAll_of_leaves
  intro e he
  obtain ⟨p, -, he⟩ := List.mem_flatMap.mp he
  rcases List.mem_pair.mp he with rfl | rfl <;> rfl

theorem preorderAll_messageElements (ms : List (Nat × Message)) :
    preorderAll (ms.map fun p => messageElement s p.1 p.2) =
      ms.map fun p => messageElement s p.1 p.2 := by
  apply preorderAll_of_leaves
  intro e he
  obtain ⟨p, -, rfl⟩ := List.mem_map.mp he
  rfl

/-- The elements of a fragment, in document order. -/
def fragmentListing (n : Nat) (f : Fragment) : List Element :=
  combinedElement s covers n f :: operandElement s covers n f ::
    guardElement (s (n + 2)) f.guard :: specificationElement f.guard ::
      eventElements s covers (fragmentMessages n f) ++
        (fragmentMessages n f).map fun p => messageElement s p.1 p.2

theorem preorderAll_fragmentElements (n : Nat) (f : Fragment) :
    preorderAll (fragmentElements s covers n f) = fragmentListing s covers n f := by
  have hguard : (guardElement (s (n + 2)) f.guard).preorder = [specificationElement f.guard] := rfl
  have hcombined : (combinedElement s covers n f).preorder =
      operandElement s covers n f :: (operandElement s covers n f).preorder := by
    simp [combinedElement, preorder, preorderAll]
  rw [fragmentElements_eq, preorderAll, preorderAll_messageElements, hcombined, preorder_eq,
    operandElement_children, preorderAll, hguard, preorderAll_eventElements]
  simp [fragmentListing]

/-- A message at top level with its two events. -/
def topLevelListing (n : Nat) (m : Message) : List Element :=
  [messageElement s n m, sendElement s covers n m, receiveElement s covers n m]

variable (n : Nat) (d : Diagram)

/-- The lifelines of a diagram, numbered. -/
def diagramLifelines : List (Nat × Lifeline) := numbered lifelineCost (n + 2) d.lifelines

/-- The messages at top level, numbered. -/
def topLevelMessages : List (Nat × Message) := numbered messageCost (messagesFrom n d) d.topLevel

/-- The fragments, numbered. -/
def diagramFragments : List (Nat × Fragment) :=
  numbered fragmentCost (fragmentsFrom n d) d.fragments

/-- All messages, numbered, in the order of their elements. -/
def diagramMessages : List (Nat × Message) :=
  topLevelMessages n d ++ (diagramFragments n d).flatMap fun p => fragmentMessages p.1 p.2

/-- The elements of an interaction, in document order. -/
def interactionListing : List Element :=
  (diagramLifelines n d).map (fun p => lifelineElement s p.1 p.2) ++
    (topLevelMessages n d).flatMap (fun p => topLevelListing s (coversOf s n d) p.1 p.2) ++
    (diagramFragments n d).flatMap fun p => fragmentListing s (coversOf s n d) p.1 p.2

theorem interactionChildren_eq :
    interactionChildren s n d =
      (diagramLifelines n d).map (fun p => lifelineElement s p.1 p.2) ++
        (topLevelMessages n d).flatMap (fun p => topLevelListing s (coversOf s n d) p.1 p.2) ++
        ((diagramFragments n d).map fun p =>
          fragmentElements s (coversOf s n d) p.1 p.2).flatten := by
  simp only [interactionChildren, allot_eq_map_numbered, List.flatMap_map]
  rfl

theorem preorderAll_interactionChildren :
    preorderAll (interactionChildren s n d) = interactionListing s n d := by
  have hlifelines : preorderAll ((diagramLifelines n d).map fun p => lifelineElement s p.1 p.2) =
      (diagramLifelines n d).map fun p => lifelineElement s p.1 p.2 := by
    apply preorderAll_of_leaves
    intro e he
    obtain ⟨p, -, rfl⟩ := List.mem_map.mp he
    rfl
  have htop : preorderAll ((topLevelMessages n d).flatMap
        fun p => topLevelListing s (coversOf s n d) p.1 p.2) =
      (topLevelMessages n d).flatMap fun p => topLevelListing s (coversOf s n d) p.1 p.2 := by
    apply preorderAll_of_leaves
    intro e he
    obtain ⟨p, -, he⟩ := List.mem_flatMap.mp he
    simp only [topLevelListing, List.mem_cons, List.not_mem_nil, or_false] at he
    rcases he with rfl | rfl | rfl <;> rfl
  rw [interactionChildren_eq, preorderAll_append, preorderAll_append, hlifelines, htop,
    preorderAll_flatten, List.map_map]
  simp only [Function.comp_def, preorderAll_fragmentElements, interactionListing,
    List.flatMap_def]

/-- The elements of the layout, in document order. -/
theorem elements_layout (modelName title : String) :
    elements ⟨modelElement s n d modelName title⟩ =
      modelElement s n d modelName title :: interactionElement s n d title ::
        interactionListing s n d := by
  have hinteraction :
      (interactionElement s n d title).preorder = interactionListing s n d := by
    rw [preorder_eq, interactionElement, preorderAll_interactionChildren]
  simp [elements, modelElement, preorder, preorderAll, hinteraction]

/-- What holds of every kind of element of a layout holds of all its elements. -/
theorem forall_elements_layout {n : Nat} {d : Diagram} {modelName title : String}
    {P : Element → Prop} (hmodel : P (modelElement s n d modelName title))
    (hinteraction : P (interactionElement s n d title))
    (hlifeline : ∀ k l, P (lifelineElement s k l))
    (hmessage : ∀ k m, P (messageElement s k m))
    (hevent : ∀ p ∈ diagramMessages n d, P (sendElement s (coversOf s n d) p.1 p.2) ∧
      P (receiveElement s (coversOf s n d) p.1 p.2))
    (hcombined : ∀ k f, P (combinedElement s (coversOf s n d) k f))
    (hoperand : ∀ k f, P (operandElement s (coversOf s n d) k f))
    (hguard : ∀ i c, P (guardElement i c)) (hspecification : ∀ c, P (specificationElement c)) :
    ∀ e ∈ elements ⟨modelElement s n d modelName title⟩, P e := by
  have htop : ∀ p ∈ topLevelMessages n d,
      ∀ e ∈ topLevelListing s (coversOf s n d) p.1 p.2, P e := by
    intro p hp e he
    have hp := hevent p (List.mem_append_left _ hp)
    simp only [topLevelListing, List.mem_cons, List.not_mem_nil, or_false] at he
    rcases he with rfl | rfl | rfl
    · exact hmessage _ _
    · exact hp.1
    · exact hp.2
  have hfragment : ∀ q ∈ diagramFragments n d,
      ∀ e ∈ fragmentListing s (coversOf s n d) q.1 q.2, P e := by
    intro q hq e he
    simp only [fragmentListing, List.cons_append, List.mem_cons, List.mem_append] at he
    rcases he with rfl | rfl | rfl | rfl | he | he
    · exact hcombined _ _
    · exact hoperand _ _
    · exact hguard _ _
    · exact hspecification _
    · obtain ⟨p, hp, he⟩ := List.mem_flatMap.mp he
      have hp := hevent p (List.mem_append_right _ (List.mem_flatMap.mpr ⟨q, hq, hp⟩))
      rcases List.mem_pair.mp he with rfl | rfl
      · exact hp.1
      · exact hp.2
    · obtain ⟨p, -, rfl⟩ := List.mem_map.mp he
      exact hmessage _ _
  intro e he
  rw [elements_layout] at he
  simp only [interactionListing, List.mem_cons, List.mem_append, List.mem_map,
    List.mem_flatMap] at he
  rcases he with rfl | rfl | (⟨p, -, rfl⟩ | ⟨p, hp, he⟩) | ⟨q, hq, he⟩
  · exact hmodel
  · exact hinteraction
  · exact hlifeline _ _
  · exact htop p hp e he
  · exact hfragment q hq e he

end Listing

/-! ## Identifiers that elements claim -/

/-- The identifiers that an element claims: its own, and that of what it represents. -/
def ownIds (e : Element) : List String :=
  (e.attributes.filter fun a => a.1 = idKey ∨ a.1 = "represents").map (·.2)

section OwnIds

variable (s : Nat → String) (covers : Covers) (n : Nat)

theorem ownIds_lifeline (l : Lifeline) : ownIds (lifelineElement s n l) = [s n, s (n + 1)] := rfl

theorem ownIds_message (m : Message) : ownIds (messageElement s n m) = [s n] := rfl

theorem ownIds_occurrence (i c m : String) : ownIds (occurrence i c m) = [i] := rfl

theorem ownIds_guard (i c : String) : ownIds (guardElement i c) = [i] := rfl

theorem ownIds_combined (f : Fragment) : ownIds (combinedElement s covers n f) = [s n] := rfl

theorem ownIds_operand (f : Fragment) : ownIds (operandElement s covers n f) = [s (n + 1)] := rfl

theorem ownIds_specification (c : String) : ownIds (specificationElement c) = [] := rfl

/-- The numbers that a fragment and its messages take, in the order of their elements. -/
def fragmentNumbers (n : Nat) (f : Fragment) : List Nat :=
  [n, n + 1, n + 2] ++ (fragmentMessages n f).flatMap (fun p => [p.1 + 1, p.1 + 2]) ++
    (fragmentMessages n f).flatMap fun p => [p.1]

/-- The numbers that a diagram takes, in the order of their elements. -/
def documentNumbers (n : Nat) (d : Diagram) : List Nat :=
  [n, n + 1] ++ (diagramLifelines n d).flatMap (fun p => [p.1, p.1 + 1]) ++
    (topLevelMessages n d).flatMap (fun p => [p.1, p.1 + 1, p.1 + 2]) ++
    (diagramFragments n d).flatMap fun p => fragmentNumbers p.1 p.2

theorem ownIds_fragmentListing (f : Fragment) :
    (fragmentListing s covers n f).flatMap ownIds = (fragmentNumbers n f).map s := by
  simp [fragmentListing, fragmentNumbers, eventElements, List.flatMap_assoc, List.map_flatMap,
    ownIds_message, ownIds_combined, ownIds_operand, ownIds_guard, ownIds_specification,
    sendElement, receiveElement, ownIds_occurrence, List.flatMap_map]

theorem ownIds_layout (d : Diagram) (modelName title : String) :
    (elements ⟨modelElement s n d modelName title⟩).flatMap ownIds =
      (documentNumbers n d).map s := by
  have hmodel : ownIds (modelElement s n d modelName title) = [s n] := rfl
  have hinteraction : ownIds (interactionElement s n d title) = [s (n + 1)] := rfl
  simp [elements_layout, interactionListing, documentNumbers, List.flatMap_assoc,
    List.map_flatMap, List.flatMap_map, topLevelListing, ownIds_lifeline, ownIds_message,
    sendElement, receiveElement, ownIds_occurrence, ownIds_fragmentListing, hmodel, hinteraction]

/-- A fragment takes the numbers of its messages out of order, but all of them. -/
theorem fragmentNumbers_perm (f : Fragment) :
    (fragmentNumbers n f).Perm (List.range' n (fragmentCost f)) := by
  -- Its messages come after all their events: number by number, the last of three goes in front.
  have hrotate (k : Nat) : ([k + 1, k + 2] ++ [k]).Perm [k, k + 1, k + 2] := List.perm_append_comm
  have hmessages : ((fragmentMessages n f).flatMap fun p => [p.1 + 1, p.1 + 2] ++ [p.1]).Perm
      (List.range' (n + 3) (total messageCost f.messages)) :=
    flatMap_numbered_perm messageCost (fun k _ => hrotate k) (n + 3) f.messages
  have hswap := List.flatMap_append_perm (fragmentMessages n f) (fun p => [p.1 + 1, p.1 + 2])
    (fun p => [p.1])
  rw [fragmentNumbers, List.append_assoc, fragmentCost, ← List.range'_append_1]
  exact (List.Perm.refl [n, n + 1, n + 2]).append (hswap.trans hmessages)

/-- The identifiers that the elements claim are those that the export draws. -/
theorem documentNumbers_perm (d : Diagram) :
    (documentNumbers n d).Perm (List.range' n (documentEnd n d - n)) := by
  have hlifelines : ((diagramLifelines n d).flatMap fun p => [p.1, p.1 + 1]).Perm
      (List.range' (n + 2) (total lifelineCost d.lifelines)) :=
    flatMap_numbered_perm lifelineCost (fun _ _ => .refl _) (n + 2) d.lifelines
  have htop : ((topLevelMessages n d).flatMap fun p => [p.1, p.1 + 1, p.1 + 2]).Perm
      (List.range' (messagesFrom n d) (total messageCost d.topLevel)) :=
    flatMap_numbered_perm messageCost (fun _ _ => .refl _) (messagesFrom n d) d.topLevel
  have hfragments := flatMap_numbered_perm fragmentCost fragmentNumbers_perm
    (fragmentsFrom n d) d.fragments
  -- The four groups of numbers follow each other without a gap.
  have hcount : documentEnd n d - n = 2 + total lifelineCost d.lifelines +
      total messageCost d.topLevel + total fragmentCost d.fragments := by
    simp only [documentEnd, fragmentsFrom, messagesFrom]
    omega
  have hfirst : n + (2 + total lifelineCost d.lifelines) = messagesFrom n d := by
    simp only [messagesFrom]; omega
  have hsecond : n + (2 + total lifelineCost d.lifelines + total messageCost d.topLevel) =
      fragmentsFrom n d := by
    simp only [fragmentsFrom, messagesFrom]; omega
  rw [hcount, ← List.range'_append_1, ← List.range'_append_1, ← List.range'_append_1, hfirst,
    hsecond]
  exact (((List.Perm.refl [n, n + 1]).append hlifelines).append htop).append hfragments

end OwnIds

/-! ## Elements of each kind -/

/-- The kind of an element: its name, and its type if it has one. -/
def kindOf (e : Element) : String × Option String := (e.name, e.attribute? typeKey)

/-- Whether an element is a lifeline. -/
def isLifeline (e : Element) : Bool := (kindOf e).1 == "uml:lifeline"

/-- Whether an element is a message. -/
def isMessage (e : Element) : Bool := (kindOf e).1 == "uml:message"

/-- Whether an element is an event of a message. -/
def isOccurrence (e : Element) : Bool := (kindOf e).2 == some occurrenceType

section Kinds

variable (s : Nat → String) (covers : Covers) (n : Nat)

@[simp] theorem kindOf_lifeline (l : Lifeline) :
    kindOf (lifelineElement s n l) = ("uml:lifeline", none) := rfl

@[simp] theorem kindOf_message (m : Message) :
    kindOf (messageElement s n m) = ("uml:message", none) := rfl

@[simp] theorem kindOf_send (m : Message) :
    kindOf (sendElement s covers n m) = ("uml:fragment", some occurrenceType) := rfl

@[simp] theorem kindOf_receive (m : Message) :
    kindOf (receiveElement s covers n m) = ("uml:fragment", some occurrenceType) := rfl

@[simp] theorem kindOf_combined (f : Fragment) :
    kindOf (combinedElement s covers n f) = ("uml:fragment", some combinedType) := rfl

@[simp] theorem kindOf_operand (f : Fragment) :
    kindOf (operandElement s covers n f) = ("uml:operand", none) := rfl

@[simp] theorem kindOf_guard (i c : String) : kindOf (guardElement i c) = ("uml:guard", none) := rfl

@[simp] theorem kindOf_specification (c : String) :
    kindOf (specificationElement c) = ("uml:specification", none) := rfl

variable (d : Diagram) (modelName title : String)

@[simp] theorem kindOf_interaction :
    kindOf (interactionElement s n d title) = ("uml:packagedElement", some "uml:Interaction") := rfl

@[simp] theorem kindOf_model :
    kindOf (modelElement s n d modelName title) = ("uml:Model", none) := rfl

theorem filter_isLifeline_layout :
    (elements ⟨modelElement s n d modelName title⟩).filter isLifeline =
      (diagramLifelines n d).map fun p => lifelineElement s p.1 p.2 := by
  simp [elements_layout, interactionListing, topLevelListing, fragmentListing, eventElements,
    List.filter_flatMap, List.filter_map, isLifeline, Function.comp_def]

/-- Messages of a fragment stand after the fragment; the order of the list does not show it. -/
theorem filter_isMessage_layout :
    (elements ⟨modelElement s n d modelName title⟩).filter isMessage =
      (diagramMessages n d).map fun p => messageElement s p.1 p.2 := by
  have htop := List.map_eq_flatMap (f := fun p : Nat × Message => messageElement s p.1 p.2)
    (l := topLevelMessages n d)
  have hevents (ms : List (Nat × Message)) : ms.flatMap (fun _ => ([] : List Element)) = [] := by
    simp
  simp [elements_layout, interactionListing, topLevelListing, fragmentListing, eventElements,
    List.filter_flatMap, List.filter_map, isMessage, Function.comp_def, diagramMessages,
    List.map_flatMap, htop, hevents]

/-- Events of a fragment's messages stand inside it; the order of the list does not show it. -/
theorem filter_isOccurrence_layout :
    (elements ⟨modelElement s n d modelName title⟩).filter isOccurrence =
      eventElements s (coversOf s n d) (diagramMessages n d) := by
  simp [elements_layout, interactionListing, topLevelListing, fragmentListing, eventElements,
    List.filter_flatMap, List.filter_map, isOccurrence, occurrenceType, combinedType,
    Function.comp_def, diagramMessages, List.flatMap_assoc]

end Kinds

end SequenceXmi.Xmi
