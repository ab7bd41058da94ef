import SequenceXmi.Proofs.Xmi.Replacing

/-! # The numbers in a document

With numbered identifiers a document can be written down without running the export: every number is
computed from the position of its lifeline, message or fragment and from the sizes of what stands
before it (`numberedDocument`). The export draws the numbers one after another instead, and the
messages of a fragment come after its events in the document, although they are drawn before them.

Main result: `exportDiagram_numbered`. -/

namespace SequenceXmi.Xmi

open Xml (Element Document)

/-! ## The document, by positions -/

section Numbers

variable (k : Nat) (d : Diagram)

/-- The number of the first message at top level, if `k` identifiers are drawn before. -/
def firstMessageNumber : Nat := k + 3 + 2 * d.lifelines.length

/-- The number of the fragment at position `j`. Every fragment takes three numbers for itself and
three for each of its messages. -/
def fragmentNumber (j : Nat) : Nat :=
  firstMessageNumber k d + 3 * d.topLevel.length +
    (d.fragments.take j).foldr (fun f n => 3 + 3 * f.messages.length + n) 0

/-- The identifier of the last lifeline that is declared with an alias. -/
def coveredId (aliasName : String) : String :=
  ((lastPosition? d aliasName).map fun i => IdSupply.numbered (k + 3 + 2 * i)).getD ""

/-- The events of a message with number `n`: its sending with the next number, its receiving with
the one after that. -/
def numberedEvents (n : Nat) (m : Message) : List Element :=
  [occurrence (IdSupply.numbered (n + 1)) (coveredId k d m.sender) (IdSupply.numbered n),
    occurrence (IdSupply.numbered (n + 2)) (coveredId k d m.receiver) (IdSupply.numbered n)]

/-- A message with number `n` and its events. -/
def numberedMessage (n : Nat) (m : Message) : List Element :=
  messageElement IdSupply.numbered n m :: numberedEvents k d n m

/-- The operand of a fragment with number `n`. -/
def numberedOperand (n : Nat) (f : Fragment) : Element :=
  ⟨"uml:operand", [(idKey, IdSupply.numbered (n + 1))],
    guardElement (IdSupply.numbered (n + 2)) f.guard ::
      (f.messages.mapIdx fun i m => numberedEvents k d (n + 3 + 3 * i) m).flatten⟩

/-- A fragment with number `n`, followed by its messages. -/
def numberedFragment (n : Nat) (f : Fragment) : List Element :=
  ⟨"uml:fragment", [(typeKey, combinedType), (idKey, IdSupply.numbered n),
      ("interactionOperator", f.operator.keyword)], [numberedOperand k d n f]⟩ ::
    f.messages.mapIdx fun i m => messageElement IdSupply.numbered (n + 3 + 3 * i) m

/-- The elements of the interaction: lifelines, messages at top level with their events, and
fragments. -/
def numberedChildren : List Element :=
  (d.lifelines.mapIdx fun i l => lifelineElement IdSupply.numbered (k + 3 + 2 * i) l) ++
    (d.topLevel.mapIdx fun i m =>
      numberedMessage k d (firstMessageNumber k d + 3 * i) m).flatten ++
    (d.fragments.mapIdx fun j f => numberedFragment k d (fragmentNumber k d j) f).flatten

/-- The document of a diagram, if `k` numbered identifiers are drawn before. -/
def numberedDocument (modelName title : String) : Document :=
  ⟨⟨"uml:Model", [("xmi:version", version), ("xmlns:xmi", xmiNamespace),
      ("xmlns:uml", umlNamespace), (idKey, IdSupply.numbered (k + 1)), (nameKey, modelName)],
    [⟨"uml:packagedElement", [(typeKey, "uml:Interaction"), (idKey, IdSupply.numbered (k + 2)),
      (nameKey, title)], numberedChildren k d⟩]⟩⟩

end Numbers

/-! ## Positions and numbers drawn -/

section Positions

variable {α β : Type}

/-- The first number of an item follows those of all items before it. -/
theorem allot_eq_mapIdx (cost : α → Nat) (place : Nat → α → β) (n : Nat) (xs : List α) :
    allot cost place n xs = xs.mapIdx fun i x => place (n + total cost (xs.take i)) x := by
  induction xs generalizing n with
  | nil => rfl
  | cons x xs ih =>
    rw [allot_cons, ih, List.mapIdx_cons]
    simp only [List.take_zero, total_nil, Nat.add_zero, List.take_succ_cons, total_cons,
      Nat.add_assoc]

theorem total_eq_foldr (cost : α → Nat) (xs : List α) :
    total cost xs = xs.foldr (fun x n => cost x + n) 0 := by
  induction xs with
  | nil => rfl
  | cons x xs ih => rw [total_cons, ih, List.foldr_cons]

/-- Where each item takes as many numbers, its position says which. -/
theorem allot_const_eq_mapIdx (c : Nat) (place : Nat → α → β) (n : Nat) (xs : List α) :
    allot (fun _ => c) place n xs = xs.mapIdx fun i x => place (n + c * i) x := by
  have hstart := allot_eq_map_zipIdx c place n 0 xs
  rw [Nat.mul_zero, Nat.add_zero] at hstart
  rw [hstart, List.mapIdx_eq_zipIdx_map]

theorem map_mapIdx {γ : Type} (f : Nat → α → β) (g : β → γ) (xs : List α) :
    (xs.mapIdx f).map g = xs.mapIdx fun i x => g (f i x) := by
  rw [List.mapIdx_eq_zipIdx_map, List.mapIdx_eq_zipIdx_map, List.map_map]
  rfl

theorem flatMap_mapIdx {γ : Type} (f : Nat → α → β) (g : β → List γ) (xs : List α) :
    (xs.mapIdx f).flatMap g = (xs.mapIdx fun i x => g (f i x)).flatten := by
  rw [List.flatMap_def, map_mapIdx]

end Positions

theorem fragmentCost_eq_length (f : Fragment) : fragmentCost f = 3 + 3 * f.messages.length := by
  rw [fragmentCost, total_messageCost]

theorem total_fragmentCost (fs : List Fragment) :
    total fragmentCost fs =
      3 * fs.length + 3 * fs.foldr (fun f n => f.messages.length + n) 0 := by
  induction fs with
  | nil => rfl
  | cons f fs ih =>
    rw [total_cons, ih, fragmentCost_eq_length, List.length_cons, List.foldr_cons]
    omega

section Counts

variable (n : Nat) (d : Diagram)

/-- How many identifiers a document takes. -/
theorem documentEnd_eq_count : documentEnd n d =
    n + 2 + 2 * d.lifelines.length + 3 * d.messageCount + 3 * d.fragments.length := by
  rw [documentEnd, fragmentsFrom, messagesFrom, total_lifelineCost, total_messageCost,
    total_fragmentCost, Diagram.messageCount]
  omega

theorem length_numbered {α : Type} (cost : α → Nat) (xs : List α) :
    (numbered cost n xs).length = xs.length := by
  induction xs generalizing n with
  | nil => rfl
  | cons x xs ih => rw [numbered_cons, List.length_cons, List.length_cons, ih]

/-- Every message of the diagram has a number. -/
theorem length_diagramMessages : (diagramMessages n d).length = d.messageCount := by
  have hfragments (fs : List Fragment) (n : Nat) :
      ((numbered fragmentCost n fs).flatMap fun p => fragmentMessages p.1 p.2).length =
        fs.foldr (fun f n => f.messages.length + n) 0 := by
    induction fs generalizing n with
    | nil => rfl
    | cons f fs ih =>
      rw [numbered_cons, List.flatMap_cons, List.length_append, ih, fragmentMessages,
        length_numbered, List.foldr_cons]
  rw [diagramMessages, List.length_append, topLevelMessages, length_numbered, diagramFragments,
    hfragments, Diagram.messageCount]

variable (s : Nat → String) (modelName title : String)

/-- The document has as many messages as the diagram, and two events for each of them. -/
theorem count_messages_layout :
    ((elements ⟨modelElement s n d modelName title⟩).filter isMessage).length = d.messageCount ∧
      ((elements ⟨modelElement s n d modelName title⟩).filter isOccurrence).length =
        2 * d.messageCount := by
  have hevents (ps : List (Nat × Message)) :
      (eventElements s (coversOf s n d) ps).length = 2 * ps.length := by
    unfold eventElements
    rw [List.length_flatMap]
    simp [Nat.mul_comm]
  rw [filter_isMessage_layout, filter_isOccurrence_layout, List.length_map, hevents,
    length_diagramMessages]
  exact ⟨rfl, rfl⟩

end Counts

/-! ## The layout, by positions -/

mutual

theorem replaceIds_id : ∀ e : Element, replaceIds id e = e
  | ⟨name, attributes, children⟩ => by
    have hattributes : replaceInAttributes id attributes = attributes := by
      simp [replaceInAttributes]
    rw [replaceIds, hattributes, replaceAllIds_id children]

theorem replaceAllIds_id : ∀ es : List Element, replaceAllIds id es = es
  | [] => rfl
  | e :: es => by rw [replaceAllIds, replaceIds_id e, replaceAllIds_id es]

end

section Layouts

variable {k : Nat} {d : Diagram}

/-- After `k` identifiers, the next number is `k + 1`. -/
theorem modelElement_sequential (hd : Resolved d) (modelName title : String) :
    modelElement IdSupply.sequential.name k d modelName title =
      modelElement IdSupply.numbered (k + 1) d modelName title := by
  have hcarries : Carries id IdSupply.sequential.name k IdSupply.numbered (k + 1) := by
    intro i
    show IdSupply.numbered (k + i + 1) = IdSupply.numbered (k + 1 + i)
    rw [Nat.add_right_comm]
  rw [← replaceIds_modelElement hcarries hd, replaceIds_id]

/-- The identifier of a lifeline is known from its position. -/
theorem idOf_coversOf_numbered (aliasName : String) :
    (coversOf IdSupply.numbered (k + 1) d).idOf aliasName = coveredId k d aliasName := by
  rw [Covers.idOf, find?_coversOf, coveredId]

/-- Messages with their events, the first one with number `n`. -/
theorem allot_partsOf_numbered (n : Nat) (ms : List Message) :
    allot messageCost (partsOf IdSupply.numbered (coversOf IdSupply.numbered (k + 1) d)) n ms =
      ms.mapIdx fun i m =>
        partsOf IdSupply.numbered (coversOf IdSupply.numbered (k + 1) d) (n + 3 * i) m :=
  allot_const_eq_mapIdx 3 _ n ms

theorem events_partsOf_numbered (n : Nat) (m : Message) :
    [(partsOf IdSupply.numbered (coversOf IdSupply.numbered (k + 1) d) n m).send,
      (partsOf IdSupply.numbered (coversOf IdSupply.numbered (k + 1) d) n m).receive] =
      numberedEvents k d n m := by
  simp only [partsOf, sendElement, receiveElement, idOf_coversOf_numbered, numberedEvents]

theorem fragmentElements_numbered (n : Nat) (f : Fragment) :
    fragmentElements IdSupply.numbered (coversOf IdSupply.numbered (k + 1) d) n f =
      numberedFragment k d n f := by
  have hoperand : operandElement IdSupply.numbered (coversOf IdSupply.numbered (k + 1) d) n f =
      numberedOperand k d n f := by
    simp only [operandElement, numberedOperand, allot_partsOf_numbered, flatMap_mapIdx,
      events_partsOf_numbered]
  rw [fragmentElements, combinedElement, hoperand, allot_partsOf_numbered, map_mapIdx]
  rfl

/-- The first number of a fragment, by its position. -/
theorem fragmentNumber_eq (j : Nat) :
    fragmentsFrom (k + 1) d + total fragmentCost (d.fragments.take j) = fragmentNumber k d j := by
  rw [total_eq_foldr, fragmentNumber, fragmentsFrom, messagesFrom, total_lifelineCost,
    total_messageCost, funext fragmentCost_eq_length]
  rfl

theorem interactionChildren_numbered :
    interactionChildren IdSupply.numbered (k + 1) d = numberedChildren k d := by
  have hlifelines : allot lifelineCost (lifelineElement IdSupply.numbered) (k + 1 + 2)
      d.lifelines = d.lifelines.mapIdx fun i l =>
        lifelineElement IdSupply.numbered (k + 3 + 2 * i) l :=
    allot_const_eq_mapIdx 2 _ _ _
  have hstart : messagesFrom (k + 1) d = firstMessageNumber k d := by
    rw [messagesFrom, total_lifelineCost]
    rfl
  have hmessage (n : Nat) (m : Message) :
      (fun p : MessageParts => [p.message, p.send, p.receive])
        (partsOf IdSupply.numbered (coversOf IdSupply.numbered (k + 1) d) n m) =
        numberedMessage k d n m :=
    congrArg (messageElement IdSupply.numbered n m :: ·) (events_partsOf_numbered n m)
  rw [interactionChildren, hlifelines, allot_partsOf_numbered, flatMap_mapIdx,
    allot_eq_mapIdx fragmentCost, hstart]
  simp only [hmessage, fragmentElements_numbered, fragmentNumber_eq, numberedChildren]

end Layouts

/-! ## Exported documents -/

/-- The document of a resolved diagram has the numbers that positions and sizes say, if it is
exported with numbered identifiers of which `k` are drawn already. Then two are drawn for the model
and its interaction, two for each lifeline, three for each message and three for each fragment; and
the document has as many messages as the diagram, with two events for each. -/
theorem exportDiagram_numbered (k : Nat) (modelName : String) (d : Diagram) (title : String)
    (hd : Resolved d) :
    let ids := { IdSupply.sequential with drawn := k }
    let drawn := k + 2 + 2 * d.lifelines.length + 3 * d.messageCount + 3 * d.fragments.length
    (⟨ids, modelName⟩ : Exporter).exportDiagram d title =
        (.ok (numberedDocument k d modelName title), ⟨{ ids with drawn := drawn }, modelName⟩) ∧
      ((elements (numberedDocument k d modelName title)).filter isMessage).length =
        d.messageCount ∧
      ((elements (numberedDocument k d modelName title)).filter isOccurrence).length =
        2 * d.messageCount := by
  intro ids drawn
  have hdocument : (⟨modelElement IdSupply.numbered (k + 1) d modelName title⟩ : Document) =
      numberedDocument k d modelName title := by
    rw [modelElement, interactionElement, interactionChildren_numbered]
    rfl
  have hends : Ends ids.name (document modelName d title) k
      (.ok ⟨modelElement ids.name k d modelName title⟩) (documentEnd k d) :=
    ends_document_of_resolved hd
  rw [modelElement_sequential hd, hdocument, documentEnd_eq_count] at hends
  have hcounts := count_messages_layout (k + 1) d IdSupply.numbered modelName title
  rw [hdocument] at hcounts
  exact ⟨Exporter.exportDiagram_of_ends (x := ⟨ids, modelName⟩) hends, hcounts⟩

/-- An alias is declared twice, and a fragment has messages of its own. -/
theorem exportDiagram_numbered_repeatedAlias :
    let ids := { IdSupply.sequential with drawn := 4 }
    Resolved repeatedAlias ∧
      (⟨ids, "Model"⟩ : Exporter).exportDiagram repeatedAlias "Demo" =
        (.ok (numberedDocument 4 repeatedAlias "Model" "Demo"),
          ⟨{ ids with drawn := 24 }, "Model"⟩) ∧
      ((elements (numberedDocument 4 repeatedAlias "Model" "Demo")).filter isMessage).length = 3 ∧
      ((elements (numberedDocument 4 repeatedAlias "Model" "Demo")).filter isOccurrence).length =
        6 := by
  intro ids
  have hresolved : Resolved repeatedAlias := by
    simp [Resolved, DeclaresEnds, Declares, repeatedAlias, Message.synchronous, Message.note]
  exact ⟨hresolved, exportDiagram_numbered 4 "Model" repeatedAlias "Demo" hresolved⟩

end SequenceXmi.Xmi
