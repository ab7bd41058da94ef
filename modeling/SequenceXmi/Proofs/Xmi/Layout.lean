import SequenceXmi.Proofs.Xmi.Runs

/-! # The document of a diagram, in closed form

When every message names declared participants, the document depends on the diagram and on the
sequence of identifiers only: the loops of the export are replaced by `allot`, which gives every
lifeline, message and fragment the numbers that it draws.

Main results:

* `ends_document`: an export of a resolved diagram ends with its layout;
* `ends_document_topLevel_error`, `ends_document_fragment_error`: how far a failing export comes;
* `Exporter.of_exportDiagram_ok`: only resolved diagrams have a document, and it is their layout. -/

namespace SequenceXmi.Xmi

open Xml (Element Document)

/-! ## Resolved messages -/

/-- Both ends of the message have a lifeline. -/
def Covers.Resolves (covers : Covers) (m : Message) : Prop :=
  (covers.find? m.sender).isSome ∧ (covers.find? m.receiver).isSome

/-- The identifier of the lifeline with an alias that is known to have one. -/
def Covers.idOf (covers : Covers) (aliasName : String) : String :=
  (covers.find? aliasName).getD ""

theorem Covers.find?_eq_idOf {covers : Covers} {aliasName : String}
    (h : (covers.find? aliasName).isSome) :
    covers.find? aliasName = some (covers.idOf aliasName) := by
  obtain ⟨id, hid⟩ := Option.isSome_iff_exists.mp h
  simp [idOf, hid]

/-- The identifier of a lifeline that is found is that of a declared lifeline. -/
theorem Covers.mem_of_resolves {covers : Covers} {aliasName : String}
    (h : (covers.find? aliasName).isSome) : covers.idOf aliasName ∈ covers.map (·.2) := by
  have hfind := Covers.find?_eq_idOf h
  obtain ⟨cover, hcover, hid⟩ := Option.map_eq_some_iff.mp hfind
  have hmem : cover ∈ covers := List.mem_reverse.mp (List.mem_of_find?_eq_some hcover)
  exact List.mem_map.mpr ⟨cover, hmem, hid⟩

/-! ## Parts of a document -/

section Parts

variable (s : Nat → String)

/-- The element of a lifeline that draws its first identifier after `n` others. -/
def lifelineElement (n : Nat) (l : Lifeline) : Element :=
  ⟨"uml:lifeline", [(idKey, s n), (nameKey, l.displayName), ("represents", s (n + 1))], []⟩

/-- How messages refer to that lifeline. -/
def coverOf (n : Nat) (l : Lifeline) : String × String := (l.aliasName, s n)

/-- The element of a message that draws its first identifier after `n` others. -/
def messageElement (n : Nat) (m : Message) : Element :=
  ⟨"uml:message", [(idKey, s n), (nameKey, m.text), ("messageSort", messageSort m.kind),
    ("sendEvent", s (n + 1)), ("receiveEvent", s (n + 2))], []⟩

variable (covers : Covers)

/-- The event of sending that message. -/
def sendElement (n : Nat) (m : Message) : Element :=
  occurrence (s (n + 1)) (covers.idOf m.sender) (s n)

/-- The event of receiving that message. -/
def receiveElement (n : Nat) (m : Message) : Element :=
  occurrence (s (n + 2)) (covers.idOf m.receiver) (s n)

/-- The three elements of that message. -/
def partsOf (n : Nat) (m : Message) : MessageParts :=
  ⟨messageElement s n m, sendElement s covers n m, receiveElement s covers n m⟩

/-- A message draws three identifiers. -/
def messageCost : Message → Nat := fun _ => 3

/-- A lifeline draws two identifiers. -/
def lifelineCost : Lifeline → Nat := fun _ => 2

theorem total_messageCost (ms : List Message) : total messageCost ms = 3 * ms.length :=
  total_const 3 ms

theorem total_lifelineCost (ls : List Lifeline) : total lifelineCost ls = 2 * ls.length :=
  total_const 2 ls

/-- A fragment draws three identifiers, and then those of its messages. -/
def fragmentCost (f : Fragment) : Nat := 3 + total messageCost f.messages

/-- The operand of a fragment that draws its first identifier after `n` others. -/
def operandElement (n : Nat) (f : Fragment) : Element :=
  ⟨"uml:operand", [(idKey, s (n + 1))], guardElement (s (n + 2)) f.guard ::
    (allot messageCost (partsOf s covers) (n + 3) f.messages).flatMap fun p => [p.send, p.receive]⟩

/-- The combined fragment with that operand. -/
def combinedElement (n : Nat) (f : Fragment) : Element :=
  ⟨"uml:fragment", [(typeKey, combinedType), (idKey, s n),
    ("interactionOperator", f.operator.keyword)], [operandElement s covers n f]⟩

/-- The combined fragment, followed by its messages. -/
def fragmentElements (n : Nat) (f : Fragment) : List Element :=
  combinedElement s covers n f ::
    (allot messageCost (partsOf s covers) (n + 3) f.messages).map (·.message)

end Parts

/-! ## The document -/

section Layout

variable (s : Nat → String) (n : Nat) (d : Diagram)

/-- How many identifiers are drawn before those of the messages. -/
def messagesFrom : Nat := n + 2 + total lifelineCost d.lifelines

/-- How many identifiers are drawn before those of the fragments. -/
def fragmentsFrom : Nat := messagesFrom n d + total messageCost d.topLevel

/-- How many identifiers are drawn when the document is complete. -/
def documentEnd : Nat := fragmentsFrom n d + total fragmentCost d.fragments

/-- A document takes the same number of identifiers wherever it starts, and so does each part. -/
theorem messagesFrom_eq_add : messagesFrom n d = n + messagesFrom 0 d := by
  simp only [messagesFrom]
  omega

theorem fragmentsFrom_eq_add : fragmentsFrom n d = n + fragmentsFrom 0 d := by
  rw [fragmentsFrom, messagesFrom_eq_add, Nat.add_assoc]
  rfl

theorem documentEnd_eq_add : documentEnd n d = n + documentEnd 0 d := by
  rw [documentEnd, fragmentsFrom_eq_add, Nat.add_assoc]
  rfl

/-- How messages refer to the lifelines of the diagram. -/
def coversOf : Covers := allot lifelineCost (coverOf s) (n + 2) d.lifelines

/-- The elements of the interaction, in document order. -/
def interactionChildren : List Element :=
  allot lifelineCost (lifelineElement s) (n + 2) d.lifelines ++
    ((allot messageCost (partsOf s (coversOf s n d)) (messagesFrom n d) d.topLevel).flatMap
        fun p => [p.message, p.send, p.receive]) ++
    (allot fragmentCost (fragmentElements s (coversOf s n d)) (fragmentsFrom n d)
      d.fragments).flatten

/-- The interaction of a document for which `n` identifiers are drawn before. -/
def interactionElement (title : String) : Element :=
  ⟨"uml:packagedElement", [(typeKey, "uml:Interaction"), (idKey, s (n + 1)), (nameKey, title)],
    interactionChildren s n d⟩

/-- The model with that interaction. -/
def modelElement (modelName title : String) : Element :=
  ⟨"uml:Model", [("xmi:version", version), ("xmlns:xmi", xmiNamespace), ("xmlns:uml", umlNamespace),
    (idKey, s n), (nameKey, modelName)], [interactionElement s n d title]⟩

end Layout

/-! ## Runs of the parts -/

section Runs

variable {s : Nat → String} {covers : Covers}

theorem ends_lifeline (n : Nat) (l : Lifeline) :
    Ends s (lifeline l) n (.ok (lifelineElement s n l, coverOf s n l))
      (n + lifelineCost l) :=
  Ends.bind .draw (.bind .draw (.pure _))

theorem ends_resolve {m : Message} {aliasName : String} (h : (covers.find? aliasName).isSome)
    (n : Nat) : Ends s (resolve covers m aliasName) n (.ok (covers.idOf aliasName)) n := by
  unfold resolve
  rw [Covers.find?_eq_idOf h]
  exact .pure _

theorem ends_resolve_error {m : Message} {aliasName : String} (h : covers.find? aliasName = none)
    (n : Nat) : Ends s (resolve covers m aliasName) n (.error ⟨aliasName, m.text⟩) n := by
  unfold resolve
  rw [h]
  exact .throw _

theorem ends_messageParts {m : Message} (h : covers.Resolves m) (n : Nat) :
    Ends s (messageParts covers m) n (.ok (partsOf s covers n m)) (n + messageCost m) :=
  Ends.bind (ends_resolve h.1 n) <| .bind (ends_resolve h.2 n) <|
    .bind .draw <| .bind .draw <| .bind .draw <| .pure _

/-- The end of a message that has no lifeline: the sender, if it has none. -/
def Covers.culprit (covers : Covers) (m : Message) : Unresolved :=
  if (covers.find? m.sender).isSome then ⟨m.receiver, m.text⟩ else ⟨m.sender, m.text⟩

/-- A message that fails draws nothing: both ends are looked up first. -/
theorem ends_messageParts_error {m : Message} (h : ¬ covers.Resolves m) (n : Nat) :
    Ends s (messageParts covers m) n (.error (covers.culprit m)) n := by
  unfold Covers.culprit
  split
  · next hs =>
    have hr : covers.find? m.receiver = none := by
      simpa using fun hr => h ⟨hs, hr⟩
    exact .bind (ends_resolve hs n) (.bind_error (ends_resolve_error hr n))
  · next hs =>
    exact .bind_error (ends_resolve_error (by simpa using hs) n)

theorem ends_messages {ms : List Message} (h : ∀ m ∈ ms, covers.Resolves m) (n : Nat) :
    Ends s (ms.mapM (messageParts covers)) n
      (.ok (allot messageCost (partsOf s covers) n ms)) (n + total messageCost ms) :=
  Ends.mapM (fun m hm k => ends_messageParts (h m hm) k) n

/-- Messages fail at the first one that is not resolved. -/
theorem ends_messages_error {ms : List Message} (ns : List Message)
    {m : Message} (h : ∀ m ∈ ms, covers.Resolves m) (hm : ¬ covers.Resolves m) (n : Nat) :
    Ends s ((ms ++ m :: ns).mapM (messageParts covers)) n
      (.error (covers.culprit m)) (n + total messageCost ms) := by
  have hrun := Ends.mapM_error ns (c := 0)
    (fun m hm k => ends_messageParts (s := s) (h m hm) k)
    (fun k => ends_messageParts_error hm k) n
  exact hrun

theorem ends_fragment {f : Fragment} (h : ∀ m ∈ f.messages, covers.Resolves m) (n : Nat) :
    Ends s (fragment covers f) n (.ok (fragmentElements s covers n f))
      (n + fragmentCost f) := by
  have hmessages := ends_messages (s := s) h (n + 3)
  rw [fragmentCost, ← Nat.add_assoc]
  exact .bind .draw <| .bind .draw <| .bind .draw <| .bind hmessages (.pure _)

/-- A fragment that fails has drawn its own three identifiers. -/
theorem ends_fragment_error {f : Fragment} {ms ns : List Message} {m : Message}
    (hf : f.messages = ms ++ m :: ns) (h : ∀ m ∈ ms, covers.Resolves m)
    (hm : ¬ covers.Resolves m) (n : Nat) :
    Ends s (fragment covers f) n (.error (covers.culprit m))
      (n + (3 + total messageCost ms)) := by
  have hmessages := ends_messages_error (s := s) ns h hm (n + 3)
  rw [← hf] at hmessages
  rw [← Nat.add_assoc]
  exact .bind .draw <| .bind .draw <| .bind .draw <| .bind_error hmessages

/-! ## Runs of the document -/

variable {d : Diagram} {modelName title : String}

theorem ends_lifelines (n : Nat) (ls : List Lifeline) :
    Ends s (ls.mapM lifeline) n
      (.ok (allot lifelineCost (fun k l => (lifelineElement s k l, coverOf s k l)) n ls))
      (n + total lifelineCost ls) :=
  Ends.mapM (fun l _ k => ends_lifeline k l) n

/-- The references to the lifelines, as the export collects them. -/
theorem covers_of_lifelines (n : Nat) (d : Diagram) :
    (allot lifelineCost (fun k l => (lifelineElement s k l, coverOf s k l)) (n + 2)
      d.lifelines).map (·.2) = coversOf s n d :=
  map_allot ..

/-- Export of a diagram whose messages are all resolved ends with its layout. -/
theorem ends_document {n : Nat}
    (htop : ∀ m ∈ d.topLevel, (coversOf s n d).Resolves m)
    (hfragments : ∀ f ∈ d.fragments, ∀ m ∈ f.messages, (coversOf s n d).Resolves m) :
    Ends s (document modelName d title) n
      (.ok ⟨modelElement s n d modelName title⟩) (documentEnd n d) := by
  have hmessages := ends_messages (s := s) htop (messagesFrom n d)
  have hparts : Ends s (d.fragments.mapM (fragment (coversOf s n d))) (fragmentsFrom n d)
      (.ok (allot fragmentCost (fragmentElements s (coversOf s n d)) (fragmentsFrom n d)
        d.fragments)) (documentEnd n d) :=
    Ends.mapM (fun f hf k => ends_fragment (hfragments f hf) k) _
  -- Model and interaction draw first, then lifelines, messages and fragments.
  refine Ends.bind .draw <| .bind .draw <| .bind (ends_lifelines (n + 2) d.lifelines) ?_
  simp only [covers_of_lifelines]
  refine .bind hmessages <| .bind hparts ?_
  rw [map_allot]
  exact .pure _

/-- A failure at top level leaves the identifiers drawn that come before the failing message. -/
theorem ends_document_topLevel_error {n : Nat} {ms ns : List Message} {m : Message}
    (htop : d.topLevel = ms ++ m :: ns) (h : ∀ m ∈ ms, (coversOf s n d).Resolves m)
    (hm : ¬ (coversOf s n d).Resolves m) :
    Ends s (document modelName d title) n (.error ((coversOf s n d).culprit m))
      (messagesFrom n d + total messageCost ms) := by
  have hmessages := ends_messages_error (s := s) ns h hm (messagesFrom n d)
  rw [← htop] at hmessages
  refine Ends.bind .draw <| .bind .draw <| .bind (ends_lifelines (n + 2) d.lifelines) ?_
  simp only [covers_of_lifelines]
  exact .bind_error hmessages

/-- A failure inside a fragment leaves also those of the fragments before, and the three of the
fragment itself. -/
theorem ends_document_fragment_error {n : Nat} {fs gs : List Fragment} {f : Fragment}
    {ms ns : List Message} {m : Message}
    (htop : ∀ m ∈ d.topLevel, (coversOf s n d).Resolves m)
    (hsplit : d.fragments = fs ++ f :: gs)
    (hfs : ∀ f ∈ fs, ∀ m ∈ f.messages, (coversOf s n d).Resolves m)
    (hf : f.messages = ms ++ m :: ns) (h : ∀ m ∈ ms, (coversOf s n d).Resolves m)
    (hm : ¬ (coversOf s n d).Resolves m) :
    Ends s (document modelName d title) n (.error ((coversOf s n d).culprit m))
      (fragmentsFrom n d + total fragmentCost fs + (3 + total messageCost ms)) := by
  have hmessages := ends_messages (s := s) htop (messagesFrom n d)
  have hparts := Ends.mapM_error gs
    (fun f hf k => ends_fragment (s := s) (hfs f hf) k)
    (fun k => ends_fragment_error hf h hm k) (fragmentsFrom n d)
  rw [← hsplit] at hparts
  refine Ends.bind .draw <| .bind .draw <| .bind (ends_lifelines (n + 2) d.lifelines) ?_
  simp only [covers_of_lifelines]
  exact .bind hmessages (.bind_error hparts)

end Runs

/-! ## Declared participants -/

/-- Some lifeline of the diagram has the alias. -/
def Declares (d : Diagram) (aliasName : String) : Prop := ∃ l ∈ d.lifelines, l.aliasName = aliasName

/-- Both ends of the message are declared. -/
def DeclaresEnds (d : Diagram) (m : Message) : Prop :=
  Declares d m.sender ∧ Declares d m.receiver

/-- All messages of the diagram, at top level and in fragments, have both their ends declared. -/
def Resolved (d : Diagram) : Prop :=
  (∀ m ∈ d.topLevel, DeclaresEnds d m) ∧ ∀ f ∈ d.fragments, ∀ m ∈ f.messages, DeclaresEnds d m

theorem Covers.isSome_find?_iff {covers : Covers} {aliasName : String} :
    (covers.find? aliasName).isSome ↔ aliasName ∈ covers.map (·.1) := by
  simp [find?]

/-- The aliases that can be referred to are those of the lifelines. -/
theorem coversOf_map_fst (s : Nat → String) (n : Nat) (d : Diagram) :
    (coversOf s n d).map (·.1) = d.lifelines.map (·.aliasName) := by
  rw [coversOf, map_allot]
  exact allot_eq_map ..

theorem resolves_iff {s : Nat → String} {n : Nat} {d : Diagram} {m : Message} :
    (coversOf s n d).Resolves m ↔ DeclaresEnds d m := by
  simp only [Covers.Resolves, Covers.isSome_find?_iff, coversOf_map_fst, DeclaresEnds, Declares,
    List.mem_map]

/-- A list that does not hold a property throughout has a first item without it. -/
theorem exists_first_not {α : Type} {p : α → Prop} {xs : List α} (h : ¬ ∀ x ∈ xs, p x) :
    ∃ ys x zs, xs = ys ++ x :: zs ∧ (∀ y ∈ ys, p y) ∧ ¬ p x := by
  induction xs with
  | nil => simp at h
  | cons x xs ih =>
    by_cases hx : p x
    · have hxs : ¬ ∀ y ∈ xs, p y := fun hall => h (by simpa [hx] using hall)
      obtain ⟨ys, y, zs, rfl, hys, hy⟩ := ih hxs
      exact ⟨x :: ys, y, zs, rfl, by simpa [hx] using hys, hy⟩
    · exact ⟨[], x, xs, rfl, by simp, hx⟩

/-- Export stops at the first message with an undeclared end. How many identifiers are drawn until
then depends on the diagram only. -/
theorem ends_document_error {d : Diagram} (modelName title : String) (h : ¬ Resolved d) :
    ∃ before m after c, d.allMessages = before ++ m :: after ∧
      (∀ b ∈ before, DeclaresEnds d b) ∧ ¬ DeclaresEnds d m ∧
      ∀ s n,
        Ends s (document modelName d title) n (.error ((coversOf s n d).culprit m)) (n + c) := by
  -- The message is at top level if there is one without an end.
  by_cases htop : ∀ m ∈ d.topLevel, DeclaresEnds d m
  · have hfragments : ¬ ∀ f ∈ d.fragments, ∀ m ∈ f.messages, DeclaresEnds d m :=
      fun hall => h ⟨htop, hall⟩
    obtain ⟨fs, f, gs, hsplit, hfs, hf⟩ := exists_first_not hfragments
    obtain ⟨ms, m, ns, hmessages, hms, hm⟩ := exists_first_not hf
    refine ⟨d.topLevel ++ (fs.flatMap (·.messages) ++ ms), m, ns ++ gs.flatMap (·.messages),
      fragmentsFrom 0 d + total fragmentCost fs + (3 + total messageCost ms), ?_, ?_, hm, ?_⟩
    · simp [Diagram.allMessages, hsplit, hmessages]
    · intro b hb
      rcases List.mem_append.mp hb with hb | hb
      · exact htop b hb
      rcases List.mem_append.mp hb with hb | hb
      · obtain ⟨f, hf, hb⟩ := List.mem_flatMap.mp hb
        exact hfs f hf b hb
      · exact hms b hb
    · intro s n
      have hcount : n + (fragmentsFrom 0 d + total fragmentCost fs + (3 + total messageCost ms)) =
          fragmentsFrom n d + total fragmentCost fs + (3 + total messageCost ms) := by
        rw [fragmentsFrom_eq_add n d]
        omega
      rw [hcount]
      exact ends_document_fragment_error (fun m hm => resolves_iff.mpr (htop m hm)) hsplit
        (fun f hf m hm => resolves_iff.mpr (hfs f hf m hm)) hmessages
        (fun m hm => resolves_iff.mpr (hms m hm)) (mt resolves_iff.mp hm)
  · obtain ⟨ms, m, ns, hsplit, hms, hm⟩ := exists_first_not htop
    refine ⟨ms, m, ns ++ d.fragments.flatMap (·.messages),
      messagesFrom 0 d + total messageCost ms, ?_, hms, hm, ?_⟩
    · simp [Diagram.allMessages, hsplit]
    · intro s n
      rw [← Nat.add_assoc, ← messagesFrom_eq_add]
      exact ends_document_topLevel_error hsplit (fun m hm => resolves_iff.mpr (hms m hm))
        (mt resolves_iff.mp hm)

theorem ends_document_of_resolved {s : Nat → String} {d : Diagram} {modelName title : String}
    {n : Nat} (h : Resolved d) :
    Ends s (document modelName d title) n
      (.ok ⟨modelElement s n d modelName title⟩) (documentEnd n d) :=
  ends_document (fun m hm => resolves_iff.mpr (h.1 m hm))
    (fun f hf m hm => resolves_iff.mpr (h.2 f hf m hm))

/-! ## Exporters -/

namespace Exporter

/-- An exporter runs the export on its own supply. -/
theorem exportDiagram_of_ends {x : Exporter} {d : Diagram} {title : String}
    {r : Except Unresolved Document} {k : Nat}
    (h : Ends x.ids.name (document x.modelName d title) x.ids.drawn r k) :
    x.exportDiagram d title = (r, { x with ids := ⟨x.ids.name, k⟩ }) := by
  unfold exportDiagram
  rw [h]

/-- The document of a successful export is the layout of a resolved diagram. -/
theorem of_exportDiagram_ok {x y : Exporter} {d : Diagram} {title : String} {doc : Document}
    (h : x.exportDiagram d title = (.ok doc, y)) :
    Resolved d ∧ doc = ⟨modelElement x.ids.name x.ids.drawn d x.modelName title⟩ ∧
      y = { x with ids := ⟨x.ids.name, documentEnd x.ids.drawn d⟩ } := by
  by_cases hd : Resolved d
  · rw [exportDiagram_of_ends (ends_document_of_resolved hd)] at h
    obtain ⟨hdoc, hy⟩ := Prod.mk.inj h
    exact ⟨hd, (Except.ok.inj hdoc).symm, hy.symm⟩
  · obtain ⟨_, _, _, _, -, -, -, hends⟩ := ends_document_error x.modelName title hd
    rw [exportDiagram_of_ends (hends x.ids.name x.ids.drawn)] at h
    cases (Prod.mk.inj h).1

end Exporter

end SequenceXmi.Xmi
