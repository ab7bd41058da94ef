import SequenceXmi.Proofs.Xmi.Outline

/-! # Documents with other identifiers

Where a document has an identifier, it has nothing else: texts of the diagram stand in attributes of
their own, even if they look like identifiers. So a document depends on the supply of identifiers
only through their names. Exporting with another supply gives the document in which each identifier
is replaced by the one that is drawn in its place (`replaceIds`).

Main results: `replaceIds_modelElement` for the layout, `exportDiagram_of_carries` and
`exportDiagram_replaced` for exports. -/

namespace SequenceXmi.Xmi

open Xml (Attributes Element Document)

/-! ## From one supply to another -/

/-- What `s` names from `n` on, `f` replaces by what `s'` names from `n'` on, one by one. -/
def Carries (f : String → String) (s : Nat → String) (n : Nat) (s' : Nat → String) (n' : Nat) :
    Prop :=
  ∀ i, f (s (n + i)) = s' (n' + i)

section Carries

variable {f : String → String} {s s' : Nat → String} {n n' : Nat}

theorem Carries.self (h : Carries f s n s' n') : f (s n) = s' n' := h 0

/-- Some identifiers later it is still so. -/
theorem Carries.add (h : Carries f s n s' n') (c : Nat) : Carries f s (n + c) s' (n' + c) := by
  intro i
  rw [Nat.add_assoc, Nat.add_assoc]
  exact h (c + i)

/-- A list that takes its numbers from one supply, and the same list with the other supply. -/
theorem Carries.map_allot {α β γ : Type} {cost : α → Nat} {place : Nat → α → β}
    {place' : Nat → α → γ} {g : β → γ} {xs : List α} (h : Carries f s n s' n')
    (hplace : ∀ x ∈ xs, ∀ k k', Carries f s k s' k' → g (place k x) = place' k' x) :
    (allot cost place n xs).map g = allot cost place' n' xs := by
  induction xs generalizing n n' with
  | nil => rfl
  | cons x xs ih =>
    have hrest := ih (h.add (cost x)) fun y hy => hplace y (List.mem_cons_of_mem x hy)
    rw [allot_cons, allot_cons, List.map_cons, hplace x List.mem_cons_self n n' h, hrest]

end Carries

/-! ## Replacing identifiers -/

/-- Whether an attribute holds an identifier: an element's own, or that of another element. -/
def holdsId (key : String) : Bool :=
  [idKey, "represents", "sendEvent", "receiveEvent", "covered", "message"].contains key

/-- The attributes with their identifiers replaced. -/
def replaceInAttributes (f : String → String) (attributes : Attributes) : Attributes :=
  attributes.map fun a => if holdsId a.1 then (a.1, f a.2) else a

mutual

/-- The tree with its identifiers replaced; all else stays as it is. -/
def replaceIds (f : String → String) : Element → Element
  | ⟨name, attributes, children⟩ =>
    ⟨name, replaceInAttributes f attributes, replaceAllIds f children⟩

/-- Trees with their identifiers replaced. -/
def replaceAllIds (f : String → String) : List Element → List Element
  | [] => []
  | e :: rest => replaceIds f e :: replaceAllIds f rest

end

/-- The document with its identifiers replaced. -/
def replaceDocumentIds (f : String → String) (doc : Document) : Document :=
  ⟨replaceIds f doc.root⟩

theorem replaceAllIds_eq_map (f : String → String) (es : List Element) :
    replaceAllIds f es = es.map (replaceIds f) := by
  induction es with
  | nil => rfl
  | cons e es ih => rw [replaceAllIds, ih, List.map_cons]

theorem replaceIds_mk (f : String → String) (name : String) (attributes : Attributes)
    (children : List Element) :
    replaceIds f ⟨name, attributes, children⟩ =
      ⟨name, replaceInAttributes f attributes, children.map (replaceIds f)⟩ := by
  rw [replaceIds, replaceAllIds_eq_map]

/-! ## Parts of a layout -/

section Parts

variable {f : String → String} {s s' : Nat → String} {n n' : Nat}

theorem replaceIds_lifelineElement (h : Carries f s n s' n') (l : Lifeline) :
    replaceIds f (lifelineElement s n l) = lifelineElement s' n' l := by
  have hattributes : replaceIds f (lifelineElement s n l) = ⟨"uml:lifeline",
      [(idKey, f (s n)), (nameKey, l.displayName), ("represents", f (s (n + 1)))], []⟩ := rfl
  rw [hattributes, h.self, h 1]
  rfl

theorem replaceIds_messageElement (h : Carries f s n s' n') (m : Message) :
    replaceIds f (messageElement s n m) = messageElement s' n' m := by
  have hattributes : replaceIds f (messageElement s n m) = ⟨"uml:message",
      [(idKey, f (s n)), (nameKey, m.text), ("messageSort", messageSort m.kind),
        ("sendEvent", f (s (n + 1))), ("receiveEvent", f (s (n + 2)))], []⟩ := rfl
  rw [hattributes, h.self, h 1, h 2]
  rfl

theorem replaceIds_occurrence (f : String → String) (i c m : String) :
    replaceIds f (occurrence i c m) = occurrence (f i) (f c) (f m) := rfl

theorem replaceIds_guardElement (f : String → String) (i condition : String) :
    replaceIds f (guardElement i condition) = guardElement (f i) condition := rfl

/-- The elements of a message with their identifiers replaced. -/
def replaceInParts (f : String → String) (p : MessageParts) : MessageParts :=
  ⟨replaceIds f p.message, replaceIds f p.send, replaceIds f p.receive⟩

variable {d : Diagram}

/-- A participant keeps its position, and is known by the identifier drawn there. -/
theorem Carries.idOf (h : Carries f s n s' n') {aliasName : String}
    (hdeclared : Declares d aliasName) :
    f ((coversOf s n d).idOf aliasName) = (coversOf s' n' d).idOf aliasName := by
  have hfound := isSome_find?_coversOf (s := s) (n := n) |>.mpr hdeclared
  rw [find?_coversOf, Option.isSome_map] at hfound
  obtain ⟨i, hi⟩ := Option.isSome_iff_exists.mp hfound
  simp only [Covers.idOf, find?_coversOf, hi, Option.map_some, Option.getD_some, Nat.add_assoc]
  exact h (2 + 2 * i)

variable {k k' : Nat}

theorem replaceInParts_partsOf (h : Carries f s n s' n') (hk : Carries f s k s' k') {m : Message}
    (hm : DeclaresEnds d m) :
    replaceInParts f (partsOf s (coversOf s n d) k m) = partsOf s' (coversOf s' n' d) k' m := by
  simp only [replaceInParts, partsOf, sendElement, receiveElement, replaceIds_occurrence,
    replaceIds_messageElement hk, h.idOf hm.1, h.idOf hm.2, hk.self, hk 1, hk 2]

theorem map_replaceInParts (h : Carries f s n s' n') (hk : Carries f s k s' k')
    {ms : List Message} (hms : ∀ m ∈ ms, DeclaresEnds d m) :
    (allot messageCost (partsOf s (coversOf s n d)) k ms).map (replaceInParts f) =
      allot messageCost (partsOf s' (coversOf s' n' d)) k' ms :=
  hk.map_allot fun m hm _ _ hi => replaceInParts_partsOf h hi (hms m hm)

theorem replaceIds_operandElement (h : Carries f s n s' n') (hk : Carries f s k s' k')
    {g : Fragment} (hg : ∀ m ∈ g.messages, DeclaresEnds d m) :
    replaceIds f (operandElement s (coversOf s n d) k g) =
      operandElement s' (coversOf s' n' d) k' g := by
  have hparts := map_replaceInParts h (hk.add 3) hg
  have hattributes : replaceInAttributes f [(idKey, s (k + 1))] = [(idKey, f (s (k + 1)))] := rfl
  unfold operandElement
  rw [replaceIds_mk, hattributes, List.map_cons, replaceIds_guardElement, hk 1, hk 2, ← hparts,
    List.map_flatMap, List.flatMap_map]
  rfl

theorem map_replaceIds_fragmentElements (h : Carries f s n s' n') (hk : Carries f s k s' k')
    {g : Fragment} (hg : ∀ m ∈ g.messages, DeclaresEnds d m) :
    (fragmentElements s (coversOf s n d) k g).map (replaceIds f) =
      fragmentElements s' (coversOf s' n' d) k' g := by
  have hparts := map_replaceInParts h (hk.add 3) hg
  have hattributes : replaceInAttributes f [(typeKey, combinedType), (idKey, s k),
      ("interactionOperator", g.operator.keyword)] = [(typeKey, combinedType), (idKey, f (s k)),
      ("interactionOperator", g.operator.keyword)] := rfl
  have hcombined : replaceIds f (combinedElement s (coversOf s n d) k g) =
      combinedElement s' (coversOf s' n' d) k' g := by
    unfold combinedElement
    rw [replaceIds_mk, hattributes, List.map_singleton, replaceIds_operandElement h hk hg, hk.self]
  unfold fragmentElements
  rw [List.map_cons, hcombined, ← hparts, List.map_map, List.map_map]
  rfl

end Parts

/-! ## The layout -/

section Layout

variable {f : String → String} {s s' : Nat → String} {n n' : Nat} {d : Diagram}

theorem Carries.messagesFrom (h : Carries f s n s' n') (d : Diagram) :
    Carries f s (messagesFrom n d) s' (messagesFrom n' d) := by
  rw [messagesFrom_eq_add n, messagesFrom_eq_add n']
  exact h.add _

theorem Carries.fragmentsFrom (h : Carries f s n s' n') (d : Diagram) :
    Carries f s (fragmentsFrom n d) s' (fragmentsFrom n' d) := by
  rw [fragmentsFrom_eq_add n, fragmentsFrom_eq_add n']
  exact h.add _

theorem map_replaceIds_interactionChildren (h : Carries f s n s' n') (hd : Resolved d) :
    (interactionChildren s n d).map (replaceIds f) = interactionChildren s' n' d := by
  have hlifelines : (allot lifelineCost (lifelineElement s) (n + 2) d.lifelines).map
      (replaceIds f) = allot lifelineCost (lifelineElement s') (n' + 2) d.lifelines :=
    (h.add 2).map_allot fun l _ _ _ hk => replaceIds_lifelineElement hk l
  have htop := map_replaceInParts h (h.messagesFrom d) hd.1
  have hfragments : (allot fragmentCost (fragmentElements s (coversOf s n d)) (fragmentsFrom n d)
      d.fragments).map (List.map (replaceIds f)) =
      allot fragmentCost (fragmentElements s' (coversOf s' n' d)) (fragmentsFrom n' d)
        d.fragments :=
    (h.fragmentsFrom d).map_allot fun g hg _ _ hk =>
      map_replaceIds_fragmentElements h hk (hd.2 g hg)
  unfold interactionChildren
  rw [List.map_append, List.map_append, hlifelines, ← htop, List.map_flatMap, List.flatMap_map,
    List.map_flatten, hfragments]
  rfl

/-- The layout for one supply becomes that for the other one. -/
theorem replaceIds_modelElement (h : Carries f s n s' n') (hd : Resolved d)
    (modelName title : String) :
    replaceIds f (modelElement s n d modelName title) = modelElement s' n' d modelName title := by
  have hmodel : replaceInAttributes f [("xmi:version", version), ("xmlns:xmi", xmiNamespace),
      ("xmlns:uml", umlNamespace), (idKey, s n), (nameKey, modelName)] =
      [("xmi:version", version), ("xmlns:xmi", xmiNamespace), ("xmlns:uml", umlNamespace),
        (idKey, f (s n)), (nameKey, modelName)] := rfl
  have hattributes : replaceInAttributes f [(typeKey, "uml:Interaction"), (idKey, s (n + 1)),
      (nameKey, title)] =
      [(typeKey, "uml:Interaction"), (idKey, f (s (n + 1))), (nameKey, title)] := rfl
  have hinteraction : replaceIds f (interactionElement s n d title) =
      interactionElement s' n' d title := by
    unfold interactionElement
    rw [replaceIds_mk, hattributes, map_replaceIds_interactionChildren h hd, h 1]
  unfold modelElement
  rw [replaceIds_mk, hmodel, List.map_singleton, hinteraction, h.self]

end Layout

/-! ## Exports -/

/-- The end that is not declared is the same for every supply. -/
theorem culprit_coversOf_eq {d : Diagram} {m : Message} (h : ¬ DeclaresEnds d m)
    (s s' : Nat → String) (n n' : Nat) :
    (coversOf s n d).culprit m = (coversOf s' n' d).culprit m :=
  (isCulprit_culprit h).unique (isCulprit_culprit h)

/-- Two exports of a diagram draw the same number of identifiers, fail in the same way, and give the
same document but for the identifiers. -/
theorem exportDiagram_of_carries {f : String → String} {x y : Exporter}
    (hname : x.modelName = y.modelName)
    (h : Carries f x.ids.name x.ids.drawn y.ids.name y.ids.drawn) (d : Diagram) (title : String) :
    ∃ c, (x.exportDiagram d title).2 = { x with ids := ⟨x.ids.name, x.ids.drawn + c⟩ } ∧
      (y.exportDiagram d title).2 = { y with ids := ⟨y.ids.name, y.ids.drawn + c⟩ } ∧
      (y.exportDiagram d title).1 = (x.exportDiagram d title).1.map (replaceDocumentIds f) := by
  by_cases hd : Resolved d
  · refine ⟨documentEnd 0 d, ?_⟩
    rw [Exporter.exportDiagram_of_ends (ends_document_of_resolved hd),
      Exporter.exportDiagram_of_ends (ends_document_of_resolved hd), documentEnd_eq_add x.ids.drawn,
      documentEnd_eq_add y.ids.drawn, ← replaceIds_modelElement h hd, hname]
    exact ⟨rfl, rfl, rfl⟩
  · obtain ⟨_, m, _, c, -, -, hm, hends⟩ := ends_document_error x.modelName title hd
    have hends' := hends
    rw [hname] at hends'
    refine ⟨c, ?_⟩
    rw [Exporter.exportDiagram_of_ends (hends x.ids.name x.ids.drawn),
      Exporter.exportDiagram_of_ends (hends' y.ids.name y.ids.drawn),
      culprit_coversOf_eq hm x.ids.name y.ids.name x.ids.drawn y.ids.drawn]
    exact ⟨rfl, rfl, rfl⟩

/-- In place of each identifier that `u` is going to draw stands the one that `v` draws then; any
other text stays as it is. -/
noncomputable def replacement (u v : IdSupply) : String → String :=
  Function.extend (fun i => u.name (u.drawn + i)) (fun i => v.name (v.drawn + i)) id

theorem carries_replacement {u : IdSupply} (h : u.NeverRepeats) (v : IdSupply) :
    Carries (replacement u v) u.name u.drawn v.name v.drawn := by
  have hinjective : Function.Injective fun i => u.name (u.drawn + i) := by
    intro i j hij
    have hsame := h _ _ (Nat.le_add_right u.drawn i) (Nat.le_add_right u.drawn j) hij
    omega
  exact fun i => hinjective.extend_apply _ _ i

/-- With any two supplies an export of a diagram draws the same number of identifiers, and fails in
the same way; or the second document is the first one, with every identifier replaced by the one
that is drawn in its place. -/
theorem exportDiagram_replaced (x y : Exporter) (d : Diagram) (title : String)
    (hname : x.modelName = y.modelName) (hids : x.ids.NeverRepeats) :
    ∃ c, (x.exportDiagram d title).2 = { x with ids := ⟨x.ids.name, x.ids.drawn + c⟩ } ∧
      (y.exportDiagram d title).2 = { y with ids := ⟨y.ids.name, y.ids.drawn + c⟩ } ∧
      (y.exportDiagram d title).1 =
        (x.exportDiagram d title).1.map (replaceDocumentIds (replacement x.ids y.ids)) :=
  exportDiagram_of_carries hname (carries_replacement hids y.ids) d title

/-- A diagram whose texts look like identifiers. -/
def lookalike : Diagram :=
  ⟨[⟨"A", "_id3"⟩, ⟨"_id5", "_id4"⟩], [.synchronous "A" "_id5" "_id1"],
    [⟨.loop, "_id2", [.note "_id5" "_id7"]⟩]⟩

/-- Both supplies draw some of the same identifiers, at different times. -/
theorem exportDiagram_replaced_lookalike :
    let x := Exporter.ofIds .sequential
    let y := Exporter.ofIds { IdSupply.sequential with drawn := 4 }
    (∃ doc, (x.exportDiagram lookalike "_id1").1 = .ok doc) ∧ x.modelName = y.modelName ∧
      x.ids.NeverRepeats ∧
      ∃ c, (x.exportDiagram lookalike "_id1").2 = { x with ids := ⟨x.ids.name, 0 + c⟩ } ∧
        (y.exportDiagram lookalike "_id1").2 = { y with ids := ⟨y.ids.name, 4 + c⟩ } ∧
        (y.exportDiagram lookalike "_id1").1 =
          (x.exportDiagram lookalike "_id1").1.map
            (replaceDocumentIds (replacement x.ids y.ids)) := by
  intro x y
  have hids : x.ids.NeverRepeats := IdSupply.sequential_neverRepeats 0
  exact ⟨⟨_, rfl⟩, rfl, hids, exportDiagram_replaced x y lookalike "_id1" rfl hids⟩

end SequenceXmi.Xmi
