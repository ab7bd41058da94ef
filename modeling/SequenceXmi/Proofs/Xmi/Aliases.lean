import SequenceXmi.Proofs.Xmi.Contents
import SequenceXmi.Proofs.Xmi.Failing

/-! # The lifeline of an alias

An alias that is declared more than once stands for the lifeline that is declared last. A diagram
looks it up from the end of its lifelines; a document refers to it by an identifier, which an export
finds among those it has collected. Both come to the same lifeline: where a lifeline is declared
last, both searches stop (`exists_isLastDeclared`).

Main result: `exportDiagram_follows_lookup`. -/

namespace SequenceXmi.Xmi

open Xml (Element Document)

/-! ## Last declarations -/

/-- The lifeline at a position has the alias, and no later one has. -/
structure IsLastDeclared (d : Diagram) (aliasName : String) (i : Nat) (l : Lifeline) : Prop where
  at_position : d.lifelines[i]? = some l
  aliasName_eq : l.aliasName = aliasName
  last : ∀ j, i < j → ∀ m, d.lifelines[j]? = some m → m.aliasName ≠ aliasName

section Lookup

variable {d : Diagram} {aliasName : String}

theorem isSome_lifeline?_iff : (d.lifeline? aliasName).isSome ↔ Declares d aliasName := by
  simp [Diagram.lifeline?, Declares]

/-- From the end of a list, a search stops at the item behind which no other fits. -/
theorem find?_reverse_append_cons {α : Type} {p : α → Bool} {x : α} (before : List α)
    {after : List α} (hx : p x) (hafter : ∀ y ∈ after, p y = false) :
    (before ++ x :: after).reverse.find? p = some x := by
  have hnone : after.reverse.find? p = none :=
    List.find?_eq_none.mpr fun y hy => by simp [hafter y (List.mem_reverse.mp hy)]
  rw [List.reverse_append, List.reverse_cons, List.append_assoc, List.find?_append, hnone]
  simp [hx]

/-- At a larger position than that of an item stands one of the items behind it. -/
theorem mem_of_getElem?_append_cons {α : Type} {before after : List α} {x y : α} {j : Nat}
    (hj : before.length < j) (h : (before ++ x :: after)[j]? = some y) : y ∈ after := by
  obtain ⟨k, rfl⟩ := Nat.exists_eq_add_of_lt hj
  rw [List.getElem?_append_right (by omega), Nat.add_assoc, Nat.add_sub_cancel_left,
    List.getElem?_cons_succ] at h
  exact List.mem_of_getElem? h

/-- A declared alias has a last declaration. The diagram finds the lifeline, and an export its
position. -/
theorem exists_isLastDeclared (h : Declares d aliasName) :
    ∃ i l, IsLastDeclared d aliasName i l ∧ d.lifeline? aliasName = some l ∧
      lastPosition? d aliasName = some i := by
  obtain ⟨l, hl⟩ := Option.isSome_iff_exists.mp (isSome_lifeline?_iff.mpr h)
  obtain ⟨hname, behind, front, hsplit, hbehind⟩ := List.find?_eq_some_iff_append.mp hl
  have hlifelines : d.lifelines = front.reverse ++ l :: behind.reverse := by
    rw [← List.reverse_reverse d.lifelines, hsplit]
    simp
  have hlater : ∀ m ∈ behind.reverse, (m.aliasName == aliasName) = false := fun m hm => by
    simpa using hbehind m (List.mem_reverse.mp hm)
  refine ⟨front.reverse.length, l, ⟨?_, by simpa using hname, ?_⟩, hl, ?_⟩
  · rw [hlifelines, getElem?_length_append]
  · intro j hj m hm
    rw [hlifelines] at hm
    simpa using hlater m (mem_of_getElem?_append_cons hj hm)
  · -- The numbered lifelines are cut at the same place.
    have hnumbered : d.lifelines.zipIdx = front.reverse.zipIdx ++
        (l, front.reverse.length) :: behind.reverse.zipIdx (front.reverse.length + 1) := by
      rw [hlifelines, List.zipIdx_append, List.zipIdx_cons, Nat.zero_add]
    have hlaterNumbered : ∀ p ∈ behind.reverse.zipIdx (front.reverse.length + 1),
        (p.1.aliasName == aliasName) = false := fun p hp =>
      hlater p.1 (List.fst_mem_of_mem_zipIdx hp)
    rw [lastPosition?, hnumbered, find?_reverse_append_cons
      (p := fun p : Lifeline × Nat => p.1.aliasName == aliasName) _ hname hlaterNumbered]
    rfl

end Lookup

/-! ## References to lifelines -/

/-- An event covers the lifeline that an alias stands for. -/
structure CoversAlias (d : Diagram) (doc : Document) (e : Element) (aliasName : String) :
    Prop where
  /-- The lifeline is the one declared last, which the diagram finds too. Its element stands at the
  same position among those of all lifelines, and the event refers to that element. -/
  lifeline : ∃ i l element, IsLastDeclared d aliasName i l ∧ d.lifeline? aliasName = some l ∧
    ((elements doc).filter isLifeline)[i]? = some element ∧
    element.attribute? nameKey = some l.displayName ∧ refersTo e "covered" element

/-- The events of a message cover the lifelines of its sender and of its receiver. -/
structure CoversEnds (d : Diagram) (doc : Document) (m : Message) (element : Element) : Prop where
  text : element.attribute? nameKey = some m.text
  send : ∃ e ∈ elements doc, IsEventOf element "sendEvent" e ∧ CoversAlias d doc e m.sender
  receive : ∃ e ∈ elements doc, IsEventOf element "receiveEvent" e ∧ CoversAlias d doc e m.receiver

/-- Whether a message names an alias at one of its ends. -/
def NamesAlias (m : Message) (aliasName : String) : Prop :=
  m.sender = aliasName ∨ m.receiver = aliasName

section Layouts

variable {s : Nat → String} {n : Nat} {d : Diagram}

/-- The elements of lifelines stand in the order of their declarations, and each takes two
identifiers. -/
theorem getElem?_lifelines_layout {i : Nat} {l : Lifeline} (h : d.lifelines[i]? = some l)
    (modelName title : String) :
    ((elements ⟨modelElement s n d modelName title⟩).filter isLifeline)[i]? =
      some (lifelineElement s (n + 2 + 2 * i) l) := by
  have hlifelines : (diagramLifelines n d).map (fun p => lifelineElement s p.1 p.2) =
      d.lifelines.zipIdx.map fun p => lifelineElement s (n + 2 + 2 * p.2) p.1 := by
    rw [diagramLifelines, ← allot_eq_map_numbered]
    exact allot_eq_map_zipIdx 2 (lifelineElement s) (n + 2) 0 d.lifelines
  rw [filter_isLifeline_layout, hlifelines, List.getElem?_map, List.getElem?_zipIdx, h]
  simp

/-- An event covers the lifeline of an alias if it refers to the identifier that the export finds
for the alias. -/
theorem coversAlias_layout {aliasName : String} (h : Declares d aliasName)
    (modelName title id message : String) :
    CoversAlias d ⟨modelElement s n d modelName title⟩
      (occurrence id ((coversOf s n d).idOf aliasName) message) aliasName := by
  obtain ⟨i, l, hlast, hlookup, hposition⟩ := exists_isLastDeclared h
  have hid : (coversOf s n d).idOf aliasName = s (n + 2 + 2 * i) := by
    rw [Covers.idOf, find?_coversOf, hposition]
    rfl
  have hrefers : refersTo (occurrence id ((coversOf s n d).idOf aliasName) message) "covered"
      (lifelineElement s (n + 2 + 2 * i) l) := by
    have hlifeline : (lifelineElement s (n + 2 + 2 * i) l).attribute? idKey =
        some (s (n + 2 + 2 * i)) := rfl
    simp [refersTo, hid, hlifeline]
  exact ⟨i, l, _, hlast, hlookup, getElem?_lifelines_layout hlast.at_position modelName title, rfl,
    hrefers⟩

theorem coversEnds_layout (hd : Resolved d) (modelName title : String) {p : Nat × Message}
    (hp : p ∈ diagramMessages n d) :
    CoversEnds d ⟨modelElement s n d modelName title⟩ p.2 (messageElement s p.1 p.2) := by
  obtain ⟨hsend, hreceive⟩ := events_mem_elements (s := s) modelName title hp
  obtain ⟨hsender, hreceiver⟩ := hd.declaresEnds hp
  exact ⟨rfl, ⟨_, hsend, isEventOf_send .., coversAlias_layout hsender ..⟩,
    ⟨_, hreceive, isEventOf_receive .., coversAlias_layout hreceiver ..⟩⟩

/-- Messages of a diagram have their elements in the same order. -/
theorem forall₂_coversEnds_layout (hd : Resolved d) (modelName title : String) :
    List.Forall₂ (CoversEnds d ⟨modelElement s n d modelName title⟩) d.allMessages
      ((elements ⟨modelElement s n d modelName title⟩).filter isMessage) := by
  rw [← map_snd_diagramMessages n d, filter_isMessage_layout, List.forall₂_map_left_iff,
    List.forall₂_map_right_iff, List.forall₂_same]
  exact fun p hp => coversEnds_layout hd modelName title hp

end Layouts

/-- A message names one element of the document under a key, and no other. -/
theorem CrossReferenced.eq_of_refersTo {doc : Document} (h : CrossReferenced doc) {m : Element}
    {key : String} {e f : Element} (he : e ∈ elements doc) (hf : f ∈ elements doc)
    (hme : refersTo m key e) (hmf : refersTo m key f) : e = f := by
  obtain ⟨i, hi, hei⟩ := Option.any_eq_true _ _ |>.mp hme
  obtain ⟨j, hj, hfj⟩ := Option.any_eq_true _ _ |>.mp hmf
  obtain rfl : i = j := Option.some.inj (hi.symm.trans hj)
  -- The identifier is claimed once.
  have honly {g : Element} (hg : g ∈ elements doc) (hgi : g.attribute? idKey = some i) :
      (elements doc).filter (fun x => i ∈ ownIds x) = [g] :=
    filter_mem_eq_singleton h.ids_nodup hg (mem_ownIds_of_attribute? hgi)
  have hsame := (honly he (by simpa using hei)).symm.trans (honly hf (by simpa using hfj))
  exact List.singleton_inj.mp hsame

/-! ## Lookups and exports -/

/-- A diagram looks lifelines up as exports do. -/
structure LookupAgrees (d : Diagram) : Prop where
  /-- A lifeline is not found if and only if no diagram of the same lifelines can be exported with a
  message that names the alias, at top level or in a fragment. -/
  eq_none_iff : ∀ aliasName, d.lifeline? aliasName = none ↔
    ∀ e m, e.lifelines = d.lifelines → m ∈ e.allMessages → NamesAlias m aliasName →
      ∀ (x : Exporter) title, ∃ u, (x.exportDiagram e title).1 = .error u
  /-- An export fails at an alias that is not found. -/
  of_failed : ∀ (x : Exporter) title u, (x.exportDiagram d title).1 = .error u →
    d.lifeline? u.aliasName = none

section Agreement

variable {d : Diagram} {aliasName : String}

theorem lifeline?_eq_none_iff : d.lifeline? aliasName = none ↔ ¬ Declares d aliasName := by
  rw [← isSome_lifeline?_iff, Bool.not_eq_true, Option.isSome_eq_false_iff,
    Option.isNone_iff_eq_none]

/-- No end of a message of a resolved diagram is undeclared. -/
theorem not_resolved_of_names {m : Message} (hm : m ∈ d.allMessages)
    (hnames : NamesAlias m aliasName) (h : ¬ Declares d aliasName) : ¬ Resolved d := by
  intro hd
  obtain ⟨hsender, hreceiver⟩ := resolved_iff.mp hd m hm
  rcases hnames with rfl | rfl
  · exact h hsender
  · exact h hreceiver

theorem IsFirstCulprit.not_declares {u : Unresolved} (h : IsFirstCulprit d u) :
    ¬ Declares d u.aliasName := by
  obtain ⟨_, m, _, -, -, hculprit⟩ := h
  cases hculprit with
  | sender hundeclared => exact hundeclared
  | receiver _ hundeclared => exact hundeclared

theorem lookupAgrees (d : Diagram) : LookupAgrees d where
  eq_none_iff aliasName := by
    rw [lifeline?_eq_none_iff]
    constructor
    · intro h e m hlifelines hm hnames x title
      have hundeclared : ¬ Declares e aliasName := by rwa [Declares, hlifelines]
      obtain ⟨u, -, herror⟩ :=
        x.exportDiagram_of_not_resolved title (not_resolved_of_names hm hnames hundeclared)
      exact ⟨u, herror⟩
    · -- A declared lifeline can send itself a message.
      intro h hdeclares
      let m := Message.synchronous aliasName aliasName ""
      let e : Diagram := ⟨d.lifelines, [m], []⟩
      have he : Resolved e := by
        refine ⟨fun m hm => ?_, fun f hf => absurd hf List.not_mem_nil⟩
        obtain rfl := List.mem_singleton.mp hm
        exact ⟨hdeclares, hdeclares⟩
      obtain ⟨doc, hok⟩ := (Exporter.ofIds .sequential).exportDiagram_of_resolved "" he
      obtain ⟨u, herror⟩ := h e m rfl List.mem_cons_self (.inl rfl) (Exporter.ofIds .sequential) ""
      rw [hok] at herror
      cases herror
  of_failed x title u h := by
    rw [lifeline?_eq_none_iff]
    by_cases hd : Resolved d
    · obtain ⟨doc, hok⟩ := x.exportDiagram_of_resolved title hd
      rw [hok] at h
      cases h
    · obtain ⟨v, hv, herror⟩ := x.exportDiagram_of_not_resolved title hd
      obtain rfl : v = u := Except.error.inj (herror.symm.trans h)
      exact hv.not_declares

end Agreement

/-- Events cover the lifelines that the diagram finds for the ends of their messages, which are the
last declared ones: for the messages of any diagram that is exported, with any aliases. If the
supply does not repeat itself, these events are the only elements that the messages name. Lookups
fail for the aliases for which exports fail. -/
theorem exportDiagram_follows_lookup :
    (∀ (x y : Exporter) (d : Diagram) (title : String) (doc : Document),
      x.exportDiagram d title = (.ok doc, y) →
        List.Forall₂ (CoversEnds d doc) d.allMessages ((elements doc).filter isMessage) ∧
        (x.ids.NeverRepeats → ∀ m key, ∀ e ∈ elements doc, ∀ f ∈ elements doc,
          refersTo m key e → refersTo m key f → e = f)) ∧
      ∀ d, LookupAgrees d := by
  refine ⟨?_, lookupAgrees⟩
  intro x y d title doc h
  obtain ⟨hd, rfl, -⟩ := Exporter.of_exportDiagram_ok h
  refine ⟨forall₂_coversEnds_layout hd x.modelName title, ?_⟩
  intro hids m key e he f hf hme hmf
  exact (crossReferenced_layout hids hd).eq_of_refersTo he hf hme hmf

/-- Of two lifelines with one alias the second one is found and covered. -/
theorem exportDiagram_follows_lookup_repeatedAlias :
    repeatedAlias.lifeline? "A" = some ⟨"A", "Last"⟩ ∧
      ∃ doc y, (Exporter.ofIds .sequential).exportDiagram repeatedAlias "Demo" = (.ok doc, y) ∧
        List.Forall₂ (CoversEnds repeatedAlias doc) repeatedAlias.allMessages
          ((elements doc).filter isMessage) := by
  have hrun : ∃ doc y,
      (Exporter.ofIds .sequential).exportDiagram repeatedAlias "Demo" = (.ok doc, y) := ⟨_, _, rfl⟩
  obtain ⟨doc, y, hrun⟩ := hrun
  exact ⟨rfl, doc, y, hrun, (exportDiagram_follows_lookup.1 _ _ _ _ _ hrun).1⟩

end SequenceXmi.Xmi
