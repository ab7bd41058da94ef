import Mathlib.Data.List.Flatten
import Mathlib.Data.List.Nodup
import Std.Data.String.ToNat
import SequenceXmi.Proofs.Xmi.Elements

/-! # References of a document

A document is held together by identifiers: a message names its two events, an event names its
message and the lifeline that it covers. `CrossReferenced` says that this net has no loose end, and
`exportDiagram_crossReferenced` that every exported document has it, whatever the diagram holds, if
the supply does not repeat itself.

That no identifier is claimed twice comes from the numbers that the layout takes
(`documentNumbers_perm`); the references come from the fact that a message and its two events take
three numbers in a row. -/

namespace SequenceXmi

/-! ## Supplies that do not repeat themselves -/

/-- No identifier is drawn twice from here on. -/
def IdSupply.NeverRepeats (ids : IdSupply) : Prop :=
  ∀ i j, ids.drawn ≤ i → ids.drawn ≤ j → ids.name i = ids.name j → i = j

theorem IdSupply.numbered_injective {i j : Nat} (h : numbered i = numbered j) : i = j :=
  Nat.repr_injective ((String.append_right_inj "_id").mp h)

/-- Numbered identifiers are never drawn twice, whatever number comes first. -/
theorem IdSupply.sequential_neverRepeats (k : Nat) :
    { IdSupply.sequential with drawn := k }.NeverRepeats := by
  intro i j _ _ h
  have hsucc : i + 1 = j + 1 := numbered_injective h
  omega

namespace Xmi

open Xml (Element Document)

/-! ## The net of references -/

/-- The value of an attribute is the identifier of another element. -/
def refersTo (e : Element) (key : String) (target : Element) : Bool :=
  (e.attribute? key).any fun i => target.attribute? idKey == some i

/-- An element is the event that a message names under a key, and names that message itself. -/
structure IsEventOf (m : Element) (key : String) (e : Element) : Prop where
  name_eq : e.name = "uml:fragment"
  occurrence : isOccurrence e
  named : refersTo m key e
  names : refersTo e "message" m

/-- Whether a message names an element as one of its events. -/
def namesEvent (e m : Element) : Bool :=
  isMessage m && (refersTo m "sendEvent" e || refersTo m "receiveEvent" e)

/-- The references of a document are sound and complete. -/
structure CrossReferenced (doc : Document) : Prop where
  /-- No identifier is claimed twice in the whole tree. -/
  ids_nodup : ((elements doc).flatMap ownIds).Nodup
  /-- Every message has two different events, one for each end. -/
  message_events : ∀ m ∈ elements doc, isMessage m →
    ∃ e ∈ elements doc, ∃ e' ∈ elements doc,
      e ≠ e' ∧ IsEventOf m "sendEvent" e ∧ IsEventOf m "receiveEvent" e'
  /-- Every event is named by exactly one message, and for one end only. -/
  event_message : ∀ e ∈ elements doc, isOccurrence e →
    ∃ m, (elements doc).filter (namesEvent e) = [m] ∧
      (refersTo m "sendEvent" e ^^ refersTo m "receiveEvent" e)
  /-- Whatever is covered is a lifeline of the document. -/
  covered_lifeline : ∀ e ∈ elements doc, ∀ i, e.attribute? "covered" = some i →
    ∃ l ∈ elements doc, isLifeline l ∧ l.attribute? idKey = some i

/-! ## Attributes of messages and events -/

section Attributes

variable (s : Nat → String) (covers : Covers) (n : Nat) (m : Message)

@[simp] theorem attribute?_id_message : (messageElement s n m).attribute? idKey = some (s n) := rfl

@[simp] theorem attribute?_sendEvent_message :
    (messageElement s n m).attribute? "sendEvent" = some (s (n + 1)) := rfl

@[simp] theorem attribute?_receiveEvent_message :
    (messageElement s n m).attribute? "receiveEvent" = some (s (n + 2)) := rfl

@[simp] theorem attribute?_id_occurrence (i c r : String) :
    (occurrence i c r).attribute? idKey = some i := rfl

@[simp] theorem attribute?_message_occurrence (i c r : String) :
    (occurrence i c r).attribute? "message" = some r := rfl

@[simp] theorem attribute?_covered_occurrence (i c r : String) :
    (occurrence i c r).attribute? "covered" = some c := rfl

theorem isEventOf_send :
    IsEventOf (messageElement s n m) "sendEvent" (sendElement s covers n m) :=
  ⟨rfl, rfl, by simp [refersTo, sendElement], by simp [refersTo, sendElement]⟩

theorem isEventOf_receive :
    IsEventOf (messageElement s n m) "receiveEvent" (receiveElement s covers n m) :=
  ⟨rfl, rfl, by simp [refersTo, receiveElement], by simp [refersTo, receiveElement]⟩

end Attributes

/-! ## Lists without repetition -/

/-- If no value belongs to two items, the items that a value belongs to are one. -/
theorem filter_mem_eq_singleton {α β : Type} [DecidableEq β] {f : α → List β} {xs : List α} {x : α}
    {b : β} (h : (xs.flatMap f).Nodup) (hx : x ∈ xs) (hb : b ∈ f x) :
    xs.filter (fun y => b ∈ f y) = [x] := by
  induction xs with
  | nil => simp at hx
  | cons y ys ih =>
    rw [List.flatMap_cons, List.nodup_append] at h
    obtain ⟨-, hys, hdisjoint⟩ := h
    -- Items before `x` and after it do not have `b`, since `x` has it.
    rcases List.mem_cons.mp hx with rfl | hmem
    · have hnone : ys.filter (fun y => b ∈ f y) = [] := by
        rw [List.filter_eq_nil_iff]
        intro z hz hbz
        exact hdisjoint b hb b (List.mem_flatMap.mpr ⟨z, hz, by simpa using hbz⟩) rfl
      simp [hb, hnone]
    · have hny : b ∉ f y := fun hby =>
        hdisjoint b hby b (List.mem_flatMap.mpr ⟨x, hmem, hb⟩) rfl
      simp [hny, ih hys hmem]

/-! ## Layouts are cross-referenced -/

section Layouts

variable {s : Nat → String} {n : Nat} {d : Diagram} {modelName title : String}

/-- Identifiers are claimed once if the supply does not repeat itself. -/
theorem nodup_ownIds_layout (modelName title : String)
    (hs : ∀ i j, n ≤ i → n ≤ j → s i = s j → i = j) :
    ((elements ⟨modelElement s n d modelName title⟩).flatMap ownIds).Nodup := by
  have hperm := documentNumbers_perm n d
  have hge : ∀ i ∈ documentNumbers n d, n ≤ i := fun i hi =>
    (List.mem_range'_1.mp (hperm.mem_iff.mp hi)).1
  rw [ownIds_layout]
  apply List.Nodup.map_on
  · intro i hi j hj hij
    exact hs i j (hge i hi) (hge j hj) hij
  · exact hperm.nodup_iff.mpr List.nodup_range'

theorem mem_elements_of_mem_filter {doc : Document} {q : Element → Bool} {e : Element}
    {es : List Element} (h : (elements doc).filter q = es) (he : e ∈ es) : e ∈ elements doc := by
  rw [← h] at he
  exact (List.mem_filter.mp he).1

/-- The events of a message of the diagram are elements of the document. -/
theorem events_mem_elements (modelName title : String) {p : Nat × Message}
    (hp : p ∈ diagramMessages n d) :
    sendElement s (coversOf s n d) p.1 p.2 ∈ elements ⟨modelElement s n d modelName title⟩ ∧
      receiveElement s (coversOf s n d) p.1 p.2 ∈
        elements ⟨modelElement s n d modelName title⟩ := by
  have hevents := filter_isOccurrence_layout s n d modelName title
  constructor
  · exact mem_elements_of_mem_filter hevents
      (List.mem_flatMap.mpr ⟨p, hp, List.mem_cons_self⟩)
  · exact mem_elements_of_mem_filter hevents
      (List.mem_flatMap.mpr ⟨p, hp, List.mem_cons_of_mem _ List.mem_cons_self⟩)

theorem exists_of_isMessage {m : Element}
    (hm : m ∈ elements ⟨modelElement s n d modelName title⟩) (hkind : isMessage m) :
    ∃ p ∈ diagramMessages n d, m = messageElement s p.1 p.2 := by
  have hmem : m ∈ (elements ⟨modelElement s n d modelName title⟩).filter isMessage :=
    List.mem_filter.mpr ⟨hm, hkind⟩
  rw [filter_isMessage_layout] at hmem
  obtain ⟨p, hp, rfl⟩ := List.mem_map.mp hmem
  exact ⟨p, hp, rfl⟩

theorem exists_of_isOccurrence {e : Element}
    (he : e ∈ elements ⟨modelElement s n d modelName title⟩) (hkind : isOccurrence e) :
    ∃ p ∈ diagramMessages n d, e = sendElement s (coversOf s n d) p.1 p.2 ∨
      e = receiveElement s (coversOf s n d) p.1 p.2 := by
  have hmem : e ∈ (elements ⟨modelElement s n d modelName title⟩).filter isOccurrence :=
    List.mem_filter.mpr ⟨he, hkind⟩
  rw [filter_isOccurrence_layout] at hmem
  obtain ⟨p, hp, he⟩ := List.mem_flatMap.mp hmem
  exact ⟨p, hp, List.mem_pair.mp he⟩

/-- The numbers of events are all different. -/
theorem nodup_eventIds (hs : ∀ i j, n ≤ i → n ≤ j → s i = s j → i = j) :
    ((diagramMessages n d).flatMap fun p => [s (p.1 + 1), s (p.1 + 2)]).Nodup := by
  have hall := nodup_ownIds_layout (d := d) "" "" hs
  have hsub := List.filter_sublist (p := isOccurrence) (l := elements ⟨modelElement s n d "" ""⟩)
  -- Events are some of the elements, and their identifiers some of those claimed.
  have hevents := (hsub.flatMap ownIds).nodup hall
  rw [filter_isOccurrence_layout] at hevents
  simpa [eventElements, List.flatMap_assoc, sendElement, receiveElement, ownIds_occurrence]
    using hevents

/-- The messages that name an event, said of the diagram: those that own its number. -/
theorem filter_namesEvent_layout {e : Element} {i : String} (he : e.attribute? idKey = some i) :
    (elements ⟨modelElement s n d modelName title⟩).filter (namesEvent e) =
      ((diagramMessages n d).filter fun p => i ∈ [s (p.1 + 1), s (p.1 + 2)]).map
        fun p => messageElement s p.1 p.2 := by
  have hsplit : namesEvent e = fun m =>
      (refersTo m "sendEvent" e || refersTo m "receiveEvent" e) && isMessage m :=
    funext fun m => Bool.and_comm ..
  rw [hsplit, ← List.filter_filter, filter_isMessage_layout, List.filter_map]
  simp [Function.comp_def, refersTo, he, beq_eq_decide]

/-- An event is named by the message that it belongs to, for one of its ends, and by no other. -/
theorem event_message_layout (hs : ∀ i j, n ≤ i → n ≤ j → s i = s j → i = j) {e : Element}
    (he : e ∈ elements ⟨modelElement s n d modelName title⟩) (hkind : isOccurrence e) :
    ∃ m, (elements ⟨modelElement s n d modelName title⟩).filter (namesEvent e) = [m] ∧
      (refersTo m "sendEvent" e ^^ refersTo m "receiveEvent" e) := by
  have hnodup := nodup_eventIds (d := d) hs
  obtain ⟨p, hp, hcases⟩ := exists_of_isOccurrence he hkind
  have hends : s (p.1 + 1) ≠ s (p.1 + 2) := by
    simpa using (List.nodup_flatMap.mp hnodup).1 p hp
  -- Both ends have the same message, under different keys.
  refine ⟨messageElement s p.1 p.2, ?_⟩
  rcases hcases with rfl | rfl
  · have hid : (sendElement s (coversOf s n d) p.1 p.2).attribute? idKey = some (s (p.1 + 1)) := rfl
    rw [filter_namesEvent_layout hid, filter_mem_eq_singleton hnodup hp (by simp)]
    simp [refersTo, hid, hends]
  · have hid : (receiveElement s (coversOf s n d) p.1 p.2).attribute? idKey =
        some (s (p.1 + 2)) := rfl
    rw [filter_namesEvent_layout hid, filter_mem_eq_singleton hnodup hp (by simp)]
    simp [refersTo, hid, hends.symm]

/-- The identifiers by which messages refer to lifelines are those of lifeline elements. -/
theorem exists_lifeline_of_mem_coversOf {i : String} (hi : i ∈ (coversOf s n d).map (·.2)) :
    ∃ l ∈ elements ⟨modelElement s n d modelName title⟩,
      isLifeline l ∧ l.attribute? idKey = some i := by
  rw [coversOf, map_allot, allot_eq_map_numbered] at hi
  obtain ⟨p, hp, rfl⟩ := List.mem_map.mp hi
  refine ⟨lifelineElement s p.1 p.2, ?_, rfl, rfl⟩
  exact mem_elements_of_mem_filter (filter_isLifeline_layout s n d modelName title)
    (List.mem_map_of_mem hp)

/-- Messages of a resolved diagram have lifelines at both ends. -/
theorem Resolved.declaresEnds (hd : Resolved d) {p : Nat × Message}
    (hp : p ∈ diagramMessages n d) : DeclaresEnds d p.2 := by
  rcases List.mem_append.mp hp with hp | hp
  · obtain ⟨k, m, hm, -, -, rfl⟩ := mem_allot _ _ hp
    exact hd.1 m hm
  · obtain ⟨q, hq, hp⟩ := List.mem_flatMap.mp hp
    obtain ⟨k, f, hf, -, -, rfl⟩ := mem_allot _ _ hq
    obtain ⟨k, m, hm, -, -, rfl⟩ := mem_allot _ _ hp
    exact hd.2 f hf m hm

/-- Only events cover something, and what they cover is a lifeline. -/
theorem covered_lifeline_layout (hd : Resolved d) :
    ∀ e ∈ elements ⟨modelElement s n d modelName title⟩, ∀ i, e.attribute? "covered" = some i →
      ∃ l ∈ elements ⟨modelElement s n d modelName title⟩,
        isLifeline l ∧ l.attribute? idKey = some i := by
  apply forall_elements_layout
  case hevent =>
    intro p hp
    have hends := resolves_iff (s := s) (n := n) |>.mpr (hd.declaresEnds hp)
    refine ⟨fun i hi => ?_, fun i hi => ?_⟩
    · obtain rfl : (coversOf s n d).idOf p.2.sender = i := Option.some.inj hi
      exact exists_lifeline_of_mem_coversOf (Covers.mem_of_resolves hends.1)
    · obtain rfl : (coversOf s n d).idOf p.2.receiver = i := Option.some.inj hi
      exact exists_lifeline_of_mem_coversOf (Covers.mem_of_resolves hends.2)
  -- No other kind of element has the attribute.
  all_goals intros; contradiction

theorem crossReferenced_layout (hs : ∀ i j, n ≤ i → n ≤ j → s i = s j → i = j)
    (hd : Resolved d) : CrossReferenced ⟨modelElement s n d modelName title⟩ where
  ids_nodup := nodup_ownIds_layout modelName title hs
  message_events := by
    intro m hm hkind
    obtain ⟨p, hp, rfl⟩ := exists_of_isMessage hm hkind
    obtain ⟨hsend, hreceive⟩ := events_mem_elements (s := s) modelName title hp
    have hnumbers : s (p.1 + 1) ≠ s (p.1 + 2) := by
      simpa using (List.nodup_flatMap.mp (nodup_eventIds (d := d) hs)).1 p hp
    have hne : sendElement s (coversOf s n d) p.1 p.2 ≠
        receiveElement s (coversOf s n d) p.1 p.2 := fun h =>
      hnumbers (Option.some.inj (congrArg (·.attribute? idKey) h))
    exact ⟨_, hsend, _, hreceive, hne, isEventOf_send .., isEventOf_receive ..⟩
  event_message := fun e he hkind => event_message_layout hs he hkind
  covered_lifeline := covered_lifeline_layout hd

end Layouts

/-! ## Exported documents -/

/-- Numbered supplies never repeat an identifier, and whenever a supply does not, the documents
exported with it are cross-referenced: for any lifelines, also with repeated aliases, any messages
and any fragments. -/
theorem exportDiagram_crossReferenced :
    (∀ k, { IdSupply.sequential with drawn := k }.NeverRepeats) ∧
      ∀ (x y : Exporter) (d : Diagram) (title : String) (doc : Document),
        x.ids.NeverRepeats → x.exportDiagram d title = (.ok doc, y) → CrossReferenced doc := by
  refine ⟨IdSupply.sequential_neverRepeats, ?_⟩
  intro x y d title doc hids h
  obtain ⟨hd, rfl, -⟩ := Exporter.of_exportDiagram_ok h
  exact crossReferenced_layout hids hd

/-- Two lifelines share an alias; a call and, inside a fragment, a note refer to it. -/
def repeatedAlias : Diagram :=
  ⟨[⟨"A", "First"⟩, ⟨"B", "Other"⟩, ⟨"A", "Last"⟩], [.synchronous "A" "B" "call"],
    [⟨.alt, "ready", [.note "A" "done", .synchronous "B" "A" "answer"]⟩]⟩

theorem exportDiagram_repeatedAlias_crossReferenced :
    ∃ doc y, (Exporter.ofIds .sequential).exportDiagram repeatedAlias "Demo" = (.ok doc, y) ∧
      CrossReferenced doc := by
  have hrun : ∃ doc y,
      (Exporter.ofIds .sequential).exportDiagram repeatedAlias "Demo" = (.ok doc, y) := ⟨_, _, rfl⟩
  obtain ⟨doc, y, hrun⟩ := hrun
  exact ⟨doc, y, hrun, exportDiagram_crossReferenced.2 _ _ _ _ _
    (IdSupply.sequential_neverRepeats 0) hrun⟩

end Xmi

end SequenceXmi
