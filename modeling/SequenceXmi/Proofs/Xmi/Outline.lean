import Mathlib.Data.List.Find
import SequenceXmi.Proofs.Xmi.Outcome
import SequenceXmi.Proofs.Xmi.References

/-! # What a document tells of its diagram

A document does not hold the aliases of a diagram, only which lifelines they stand for. What is left
of a diagram without them is its `Outline`: the names that are shown, and the messages and fragments
with the positions of the lifelines in place of aliases.

Two exports that start from the same identifiers give the same document if and only if the diagrams
have the same outline (`exportDiagram_eq_iff_outline_eq`). So nothing but the spelling of aliases is
lost, and that spelling never shows.

The layout of an interaction is a list in which lifelines, messages, events and fragments stand side
by side. It is taken apart by what stands where: the lifelines end at the first other element, the
messages at top level at the first combined fragment, and every combined fragment begins a block. -/

namespace SequenceXmi.Xmi

open Xml (Element Document)

/-! ## Outlines -/

/-- What a document tells of a message. -/
structure MessageOutline where
  text : String
  kind : MessageKind
  /-- The position of the lifeline that sends. -/
  sender : Option Nat
  /-- The position of the lifeline that receives. -/
  receiver : Option Nat
  deriving DecidableEq, Repr

/-- What a document tells of a fragment. -/
structure FragmentOutline where
  operator : Operator
  guard : String
  messages : List MessageOutline
  deriving DecidableEq, Repr

/-- What a document tells of a diagram. -/
structure Outline where
  /-- The names that lifelines show. -/
  names : List String
  topLevel : List MessageOutline
  fragments : List FragmentOutline
  deriving DecidableEq, Repr

section Outlines

variable (d : Diagram)

/-- The position of the last lifeline with an alias. -/
def lastPosition? (aliasName : String) : Option Nat :=
  (d.lifelines.zipIdx.reverse.find? (·.1.aliasName == aliasName)).map (·.2)

/-- A message without the aliases of its ends. -/
def messageOutline (m : Message) : MessageOutline :=
  ⟨m.text, m.kind, lastPosition? d m.sender, lastPosition? d m.receiver⟩

/-- A fragment without the aliases in its messages. -/
def fragmentOutline (f : Fragment) : FragmentOutline :=
  ⟨f.operator, f.guard, f.messages.map (messageOutline d)⟩

/-- A diagram without its aliases. -/
def outline : Outline :=
  ⟨d.lifelines.map (·.displayName), d.topLevel.map (messageOutline d),
    d.fragments.map (fragmentOutline d)⟩

end Outlines

/-! ## Lists that are taken apart -/

section Apart

variable {α : Type} {p : α → Bool}

/-- A front that goes as far as a property does can be told from the rest. -/
theorem append_eq_append_iff_of_head {as bs as' bs' : List α} (has : ∀ x ∈ as, p x)
    (has' : ∀ x ∈ as', p x) (hbs : ∀ x ∈ bs.head?, p x = false)
    (hbs' : ∀ x ∈ bs'.head?, p x = false) : as ++ bs = as' ++ bs' ↔ as = as' ∧ bs = bs' := by
  have hfront {as bs : List α} (has : ∀ x ∈ as, p x) (hbs : ∀ x ∈ bs.head?, p x = false) :
      (as ++ bs).takeWhile p = as := by
    rw [List.takeWhile_append_of_pos has]
    cases bs with
    | nil => simp
    | cons b bs => simp [hbs b rfl]
  constructor
  · intro h
    have hsame := congrArg (List.takeWhile p) h
    rw [hfront has hbs, hfront has' hbs'] at hsame
    subst hsame
    exact ⟨rfl, List.append_cancel_left h⟩
  · rintro ⟨rfl, rfl⟩
    rfl

/-- A block begins with an item of a class, and has no other of that class. -/
def IsBlock (p : α → Bool) (block : List α) : Prop :=
  ∃ x rest, block = x :: rest ∧ p x ∧ ∀ y ∈ rest, p y = false

/-- After a block comes nothing, or an item of the class. -/
theorem head?_flatten_of_isBlock {bs : List (List α)} (h : ∀ b ∈ bs, IsBlock p b) :
    ∀ x ∈ bs.flatten.head?, p x := by
  cases bs with
  | nil => simp
  | cons b bs =>
    obtain ⟨x, rest, rfl, hx, -⟩ := h b List.mem_cons_self
    simpa using hx

/-- Blocks in a row can be told from each other. -/
theorem flatten_eq_flatten_iff {bs bs' : List (List α)} (hbs : ∀ b ∈ bs, IsBlock p b)
    (hbs' : ∀ b ∈ bs', IsBlock p b) : bs.flatten = bs'.flatten ↔ bs = bs' := by
  induction bs generalizing bs' with
  | nil =>
    cases bs' with
    | nil => simp
    | cons b' bs' =>
      obtain ⟨x, rest, rfl, -, -⟩ := hbs' _ List.mem_cons_self
      simp
  | cons b bs ih =>
    obtain ⟨x, rest, rfl, -, hrest⟩ := hbs _ List.mem_cons_self
    cases bs' with
    | nil => simp
    | cons b' bs' =>
      obtain ⟨x', rest', rfl, -, hrest'⟩ := hbs' _ List.mem_cons_self
      have hblocks := fun b hb => hbs b (List.mem_cons_of_mem _ hb)
      have hblocks' := fun b hb => hbs' b (List.mem_cons_of_mem _ hb)
      have hapart : rest ++ bs.flatten = rest' ++ bs'.flatten ↔
          rest = rest' ∧ bs.flatten = bs'.flatten :=
        append_eq_append_iff_of_head (p := fun y => !p y) (by simpa using hrest)
          (by simpa using hrest') (by simpa using head?_flatten_of_isBlock hblocks)
          (by simpa using head?_flatten_of_isBlock hblocks')
      simp only [List.flatten_cons, List.cons_append, List.cons.injEq, hapart,
        ih hblocks hblocks', and_assoc]

end Apart

/-! ## Messages -/

section Messages

variable {s : Nat → String} {n : Nat} {d d' : Diagram}

/-- The identifiers of lifelines stand at their positions. -/
theorem find?_coversOf (s : Nat → String) (n : Nat) (d : Diagram) (aliasName : String) :
    (coversOf s n d).find? aliasName =
      (lastPosition? d aliasName).map fun i => s (n + 2 + 2 * i) := by
  have hcovers : coversOf s n d = d.lifelines.zipIdx.map fun p =>
      (p.1.aliasName, s (n + 2 + 2 * p.2)) :=
    allot_eq_map_zipIdx 2 (coverOf s) (n + 2) 0 d.lifelines
  rw [hcovers, Covers.find?, ← List.map_reverse, List.find?_map, Option.map_map, lastPosition?,
    Option.map_map]
  rfl

/-- A lifeline is known by its identifier if identifiers are not drawn twice. -/
theorem idOf_eq_idOf_iff (hs : ∀ i j, n ≤ i → n ≤ j → s i = s j → i = j) {a a' : String}
    (ha : Declares d a) (ha' : Declares d' a') :
    (coversOf s n d).idOf a = (coversOf s n d').idOf a' ↔
      lastPosition? d a = lastPosition? d' a' := by
  have hfound := isSome_find?_coversOf (s := s) (n := n) |>.mpr ha
  have hfound' := isSome_find?_coversOf (s := s) (n := n) |>.mpr ha'
  rw [find?_coversOf, Option.isSome_map] at hfound hfound'
  obtain ⟨i, hi⟩ := Option.isSome_iff_exists.mp hfound
  obtain ⟨j, hj⟩ := Option.isSome_iff_exists.mp hfound'
  simp only [Covers.idOf, find?_coversOf, hi, hj, Option.map_some, Option.getD_some,
    Option.some.injEq]
  constructor
  · intro h
    have hnumber := hs _ _ (by omega) (by omega) h
    omega
  · rintro rfl
    rfl

theorem messageSort_eq_iff {k k' : MessageKind} : messageSort k = messageSort k' ↔ k = k' := by
  cases k <;> cases k' <;> decide

theorem keyword_eq_iff {o o' : Operator} : o.keyword = o'.keyword ↔ o = o' := by
  cases o <;> cases o' <;> decide

theorem occurrence_eq_iff {i c r i' c' r' : String} :
    occurrence i c r = occurrence i' c' r' ↔ i = i' ∧ c = c' ∧ r = r' := by
  have hshape (i c r : String) : occurrence i c r = ⟨"uml:fragment", [(typeKey, occurrenceType),
      (idKey, i), ("covered", c), ("message", r)], []⟩ := rfl
  simp [hshape]

/-- The elements of messages with the same numbers tell the messages apart by their outlines. -/
theorem partsOf_eq_iff (hs : ∀ i j, n ≤ i → n ≤ j → s i = s j → i = j) {m m' : Message}
    (hm : DeclaresEnds d m) (hm' : DeclaresEnds d' m') (k : Nat) :
    partsOf s (coversOf s n d) k m = partsOf s (coversOf s n d') k m' ↔
      messageOutline d m = messageOutline d' m' := by
  simp [partsOf, messageElement, sendElement, receiveElement, messageOutline, occurrence_eq_iff,
    messageSort_eq_iff, idOf_eq_idOf_iff hs hm.1 hm'.1, idOf_eq_idOf_iff hs hm.2 hm'.2, and_assoc]

/-- The same of all messages of a list. -/
theorem allot_partsOf_eq_iff (hs : ∀ i j, n ≤ i → n ≤ j → s i = s j → i = j)
    {ms ms' : List Message} (hms : ∀ m ∈ ms, DeclaresEnds d m)
    (hms' : ∀ m ∈ ms', DeclaresEnds d' m) (k : Nat) :
    allot messageCost (partsOf s (coversOf s n d)) k ms =
        allot messageCost (partsOf s (coversOf s n d')) k ms' ↔
      ms.map (messageOutline d) = ms'.map (messageOutline d') :=
  allot_eq_allot_iff
    (fun k m hm m' hm' => partsOf_eq_iff hs (hms m hm) (hms' m' hm') k) (fun _ _ _ _ _ => rfl) k

/-- Messages with their events are blocks. -/
theorem flatMap_parts_eq_iff {ps ps' : List MessageParts} :
    (ps.flatMap fun p => [p.message, p.send, p.receive]) =
      (ps'.flatMap fun p => [p.message, p.send, p.receive]) ↔ ps = ps' := by
  induction ps generalizing ps' with
  | nil => cases ps' <;> simp
  | cons p ps ih =>
    cases ps' with
    | nil => simp
    | cons p' ps' =>
      obtain ⟨message, send, receive⟩ := p
      obtain ⟨message', send', receive'⟩ := p'
      simp [ih, and_assoc]

/-- Messages and their events can be told apart also where they stand in different places. -/
theorem events_messages_eq_iff {ps ps' : List MessageParts} :
    (ps.flatMap fun p => [p.send, p.receive]) = (ps'.flatMap fun p => [p.send, p.receive]) ∧
      ps.map (·.message) = ps'.map (·.message) ↔ ps = ps' := by
  induction ps generalizing ps' with
  | nil => cases ps' <;> simp
  | cons p ps ih =>
    cases ps' with
    | nil => simp
    | cons p' ps' =>
      obtain ⟨message, send, receive⟩ := p
      obtain ⟨message', send', receive'⟩ := p'
      simp only [List.flatMap_cons, List.cons_append, List.nil_append, List.map_cons,
        List.cons.injEq, MessageParts.mk.injEq, ← ih]
      constructor
      · rintro ⟨⟨hsend, hreceive, hevents⟩, hmessage, hmessages⟩
        exact ⟨⟨hmessage, hsend, hreceive⟩, hevents, hmessages⟩
      · rintro ⟨⟨hmessage, hsend, hreceive⟩, hevents, hmessages⟩
        exact ⟨⟨hsend, hreceive, hevents⟩, hmessage, hmessages⟩

end Messages

/-! ## Fragments -/

section Fragments

variable {s : Nat → String} {n : Nat} {d d' : Diagram}

theorem fragmentElements_eq_iff (hs : ∀ i j, n ≤ i → n ≤ j → s i = s j → i = j) {f f' : Fragment}
    (hf : ∀ m ∈ f.messages, DeclaresEnds d m) (hf' : ∀ m ∈ f'.messages, DeclaresEnds d' m)
    (k : Nat) :
    fragmentElements s (coversOf s n d) k f = fragmentElements s (coversOf s n d') k f' ↔
      fragmentOutline d f = fragmentOutline d' f' := by
  have hshape (i c : String) : guardElement i c =
      ⟨"uml:guard", [(idKey, i)], [specificationElement c]⟩ := rfl
  have hguard (i c c' : String) : guardElement i c = guardElement i c' ↔ c = c' := by
    simp [hshape, specificationElement]
  have hmessages := allot_partsOf_eq_iff hs hf hf' (k + 3)
  rw [← events_messages_eq_iff] at hmessages
  simp only [fragmentElements, combinedElement, operandElement, fragmentOutline,
    List.cons.injEq, Element.mk.injEq, Prod.mk.injEq, keyword_eq_iff, hguard, true_and, and_true,
    FragmentOutline.mk.injEq, ← hmessages, and_assoc]

/-- Fragments with the same outline take the same number of identifiers. -/
theorem fragmentCost_eq {f f' : Fragment} (h : fragmentOutline d f = fragmentOutline d' f') :
    fragmentCost f = fragmentCost f' := by
  have hlength := congrArg (fun o => o.messages.length) h
  simp only [fragmentOutline, List.length_map] at hlength
  rw [fragmentCost, fragmentCost, total_messageCost, total_messageCost, hlength]

end Fragments

/-! ## Interactions -/

/-- Whether an element is a combined fragment. -/
def isCombined (e : Element) : Bool := (kindOf e).2 == some combinedType

section Interactions

variable (s : Nat → String) (n : Nat) (d : Diagram)

/-- The lifelines of an interaction. -/
def lifelinePart : List Element := allot lifelineCost (lifelineElement s) (n + 2) d.lifelines

/-- The messages at top level with their events. -/
def topLevelPart : List Element :=
  (allot messageCost (partsOf s (coversOf s n d)) (messagesFrom n d) d.topLevel).flatMap
    fun p => [p.message, p.send, p.receive]

/-- The fragments, each with its messages. -/
def fragmentPart : List (List Element) :=
  allot fragmentCost (fragmentElements s (coversOf s n d)) (fragmentsFrom n d) d.fragments

theorem interactionChildren_eq_append : interactionChildren s n d =
    (lifelinePart s n d ++ topLevelPart s n d) ++ (fragmentPart s n d).flatten := rfl

theorem kindOf_lifelinePart : ∀ e ∈ lifelinePart s n d, kindOf e = ("uml:lifeline", none) := by
  intro e he
  obtain ⟨k, l, -, -, -, rfl⟩ := mem_allot _ _ he
  exact kindOf_lifeline s k l

theorem kindOf_topLevelPart : ∀ e ∈ topLevelPart s n d, kindOf e = ("uml:message", none) ∨
    kindOf e = ("uml:fragment", some occurrenceType) := by
  intro e he
  obtain ⟨parts, hparts, he⟩ := List.mem_flatMap.mp he
  obtain ⟨k, m, -, -, -, rfl⟩ := mem_allot _ _ hparts
  simp only [List.mem_cons, List.not_mem_nil, or_false] at he
  rcases he with rfl | rfl | rfl
  · exact .inl (kindOf_message s k m)
  · exact .inr (kindOf_send s _ k m)
  · exact .inr (kindOf_receive s _ k m)

theorem isBlock_fragmentPart : ∀ b ∈ fragmentPart s n d, IsBlock isCombined b := by
  intro b hb
  obtain ⟨k, f, -, -, -, rfl⟩ := mem_allot _ _ hb
  refine ⟨_, _, fragmentElements_eq s _ k f, by simp [isCombined], ?_⟩
  intro e he
  obtain ⟨p, -, rfl⟩ := List.mem_map.mp he
  simp [isCombined]

variable {s n d} {d' : Diagram}

/-- The three parts of an interaction can be told from each other. -/
theorem interactionChildren_eq_iff_parts :
    interactionChildren s n d = interactionChildren s n d' ↔
      lifelinePart s n d = lifelinePart s n d' ∧ topLevelPart s n d = topLevelPart s n d' ∧
        fragmentPart s n d = fragmentPart s n d' := by
  have hlifeline (d : Diagram) : ∀ e ∈ lifelinePart s n d, isLifeline e := fun e he => by
    simp [isLifeline, kindOf_lifelinePart s n d e he]
  have htop (d : Diagram) : ∀ e ∈ (topLevelPart s n d).head?, isLifeline e = false := fun e he => by
    rcases kindOf_topLevelPart s n d e (List.mem_of_mem_head? he) with h | h <;>
      simp [isLifeline, h]
  have hplain (d : Diagram) : ∀ e ∈ lifelinePart s n d ++ topLevelPart s n d,
      !isCombined e := fun e he => by
    rcases List.mem_append.mp he with he | he
    · simp [isCombined, kindOf_lifelinePart s n d e he]
    · rcases kindOf_topLevelPart s n d e he with h | h <;>
        simp [isCombined, h, occurrenceType, combinedType]
  have hcombined (d : Diagram) : ∀ e ∈ (fragmentPart s n d).flatten.head?,
      (!isCombined e) = false := fun e he => by
    simpa using head?_flatten_of_isBlock (isBlock_fragmentPart s n d) e he
  rw [interactionChildren_eq_append, interactionChildren_eq_append,
    append_eq_append_iff_of_head (hplain d) (hplain d') (hcombined d) (hcombined d'),
    append_eq_append_iff_of_head (hlifeline d) (hlifeline d') (htop d) (htop d'),
    flatten_eq_flatten_iff (isBlock_fragmentPart s n d) (isBlock_fragmentPart s n d'), and_assoc]

theorem lifelinePart_eq_iff : lifelinePart s n d = lifelinePart s n d' ↔
    d.lifelines.map (·.displayName) = d'.lifelines.map (·.displayName) :=
  allot_eq_allot_iff (fun k l _ l' _ => by simp [lifelineElement]) (fun _ _ _ _ _ => rfl) _

theorem interactionChildren_eq_iff (hs : ∀ i j, n ≤ i → n ≤ j → s i = s j → i = j)
    (hd : Resolved d) (hd' : Resolved d') :
    interactionChildren s n d = interactionChildren s n d' ↔ outline d = outline d' := by
  rw [interactionChildren_eq_iff_parts, lifelinePart_eq_iff, outline, outline, Outline.mk.injEq]
  -- Each part starts from the same number if the parts before it are alike.
  refine and_congr_right fun hnames => ?_
  have hlifelines := congrArg List.length hnames
  have hfrom : messagesFrom n d = messagesFrom n d' := by
    simp only [List.length_map] at hlifelines
    rw [messagesFrom, messagesFrom, total_lifelineCost, total_lifelineCost, hlifelines]
  rw [topLevelPart, topLevelPart, flatMap_parts_eq_iff, hfrom, allot_partsOf_eq_iff hs hd.1 hd'.1]
  refine and_congr_right fun htop => ?_
  have hmessages := congrArg List.length htop
  have hfragments : fragmentsFrom n d = fragmentsFrom n d' := by
    simp only [List.length_map] at hmessages
    rw [fragmentsFrom, fragmentsFrom, total_messageCost, total_messageCost, hfrom, hmessages]
  rw [fragmentPart, fragmentPart, hfragments]
  exact allot_eq_allot_iff
    (fun k f hf f' hf' => fragmentElements_eq_iff hs (hd.2 f hf) (hd'.2 f' hf') k)
    (fun _ _ _ _ h => fragmentCost_eq h) _

end Interactions

/-! ## Renaming -/

section Renaming

variable (f : String → String) (d : Diagram)

/-- The message with other names for its ends. -/
def renameMessage (m : Message) : Message :=
  { m with sender := f m.sender, receiver := f m.receiver }

/-- The diagram with every alias renamed, where it is declared and where it is used. -/
def rename : Diagram where
  lifelines := d.lifelines.map fun l => { l with aliasName := f l.aliasName }
  topLevel := d.topLevel.map (renameMessage f)
  fragments := d.fragments.map fun g => { g with messages := g.messages.map (renameMessage f) }

variable {f d}

theorem Declares.rename {aliasName : String} (h : Declares d aliasName) :
    Declares (rename f d) (f aliasName) := by
  obtain ⟨l, hl, rfl⟩ := h
  exact ⟨_, List.mem_map_of_mem hl, rfl⟩

theorem DeclaresEnds.rename {m : Message} (h : DeclaresEnds d m) :
    DeclaresEnds (rename f d) (renameMessage f m) :=
  ⟨Declares.rename h.1, Declares.rename h.2⟩

theorem Resolved.rename (h : Resolved d) : Resolved (rename f d) := by
  constructor
  · intro m' hm'
    obtain ⟨m, hm, rfl⟩ := List.mem_map.mp hm'
    exact (h.1 m hm).rename
  · intro g' hg' m' hm'
    obtain ⟨g, hg, rfl⟩ := List.mem_map.mp hg'
    obtain ⟨m, hm, rfl⟩ := List.mem_map.mp hm'
    exact (h.2 g hg m hm).rename

/-- A renaming does not give two declared participants the same name. -/
def RenamesApart (f : String → String) (d : Diagram) : Prop :=
  ∀ a b, Declares d a → Declares d b → f a = f b → a = b

theorem lastPosition?_rename (hf : RenamesApart f d) {aliasName : String}
    (h : Declares d aliasName) :
    lastPosition? (rename f d) (f aliasName) = lastPosition? d aliasName := by
  have hsame : ∀ p ∈ d.lifelines.zipIdx.reverse,
      (f p.1.aliasName == f aliasName) = (p.1.aliasName == aliasName) := by
    intro p hp
    have hdeclared : Declares d p.1.aliasName :=
      ⟨p.1, List.fst_mem_of_mem_zipIdx (List.mem_reverse.mp hp), rfl⟩
    rw [Bool.eq_iff_iff, beq_iff_eq, beq_iff_eq]
    exact ⟨hf _ _ hdeclared h, congrArg f⟩
  rw [lastPosition?, lastPosition?, rename, List.zipIdx_map, ← List.map_reverse, List.find?_map,
    Option.map_map]
  exact congrArg _ (List.find?_congr hsame)

/-- Renaming leaves the outline of a resolved diagram as it is. -/
theorem outline_rename (hf : RenamesApart f d) (hd : Resolved d) :
    outline (rename f d) = outline d := by
  have hmessages {ms : List Message} (hms : ∀ m ∈ ms, DeclaresEnds d m) :
      (ms.map (renameMessage f)).map (messageOutline (rename f d)) =
        ms.map (messageOutline d) := by
    rw [List.map_map]
    refine List.map_congr_left fun m hm => ?_
    simp [messageOutline, renameMessage, lastPosition?_rename hf (hms m hm).1,
      lastPosition?_rename hf (hms m hm).2]
  have hfragments : (rename f d).fragments.map (fragmentOutline (rename f d)) =
      d.fragments.map (fragmentOutline d) := by
    rw [rename, List.map_map]
    refine List.map_congr_left fun g hg => ?_
    simp only [Function.comp_apply, fragmentOutline]
    rw [← hmessages (hd.2 g hg)]
    rfl
  rw [outline, outline, Outline.mk.injEq]
  refine ⟨?_, hmessages hd.1, hfragments⟩
  rw [rename, List.map_map]
  rfl

end Renaming

/-! ## Exported documents -/

/-- Layouts are the same if and only if the outlines of the diagrams are. -/
theorem modelElement_eq_iff {s : Nat → String} {n : Nat} {d d' : Diagram}
    (hs : ∀ i j, n ≤ i → n ≤ j → s i = s j → i = j) (hd : Resolved d) (hd' : Resolved d')
    (modelName title : String) :
    modelElement s n d modelName title = modelElement s n d' modelName title ↔
      outline d = outline d' := by
  simp [modelElement, interactionElement, interactionChildren_eq_iff hs hd hd']

/-- The document of a successful export, without what is left of the exporter. -/
theorem Exporter.of_exportDiagram_fst_ok {x : Exporter} {d : Diagram} {title : String}
    {doc : Document} (h : (x.exportDiagram d title).1 = .ok doc) :
    Resolved d ∧ doc = ⟨modelElement x.ids.name x.ids.drawn d x.modelName title⟩ := by
  obtain ⟨hd, hdoc, -⟩ := of_exportDiagram_ok (Prod.ext h rfl)
  exact ⟨hd, hdoc⟩

/-- Two exports from the same identifiers give the same document if and only if the diagrams have
the same outline. Renaming participants, so that different ones stay different, never changes the
document. This holds of every supply that does not repeat itself, as numbered supplies do not. -/
theorem exportDiagram_eq_iff_outline_eq :
    (∀ k, { IdSupply.sequential with drawn := k }.NeverRepeats) ∧
    ∀ (x : Exporter) (d : Diagram) (title : String) (doc : Document), x.ids.NeverRepeats →
      (x.exportDiagram d title).1 = .ok doc →
      (∀ d' doc', (x.exportDiagram d' title).1 = .ok doc' →
        (doc = doc' ↔ outline d = outline d')) ∧
      ∀ f, RenamesApart f d → (x.exportDiagram (rename f d) title).1 = .ok doc := by
  refine ⟨IdSupply.sequential_neverRepeats, ?_⟩
  intro x d title doc hids h
  obtain ⟨hd, rfl⟩ := Exporter.of_exportDiagram_fst_ok h
  constructor
  · intro d' doc' h'
    obtain ⟨hd', rfl⟩ := Exporter.of_exportDiagram_fst_ok h'
    rw [Document.mk.injEq, modelElement_eq_iff hids hd hd']
  · intro f hf
    obtain ⟨doc', h'⟩ := x.exportDiagram_of_resolved title (hd.rename (f := f))
    obtain ⟨hd', rfl⟩ := Exporter.of_exportDiagram_fst_ok h'
    rw [h', (modelElement_eq_iff hids hd' hd x.modelName title).mpr (outline_rename hf hd)]

/-- The diagram of `repeatedAlias` with different aliases for all its lifelines. -/
def respelled : Diagram :=
  ⟨[⟨"C", "First"⟩, ⟨"D", "Other"⟩, ⟨"E", "Last"⟩], [.synchronous "E" "D" "call"],
    [⟨.alt, "ready", [.note "E" "done", .synchronous "D" "E" "answer"]⟩]⟩

/-- Only the last declaration of a repeated alias shows, so that its first one may be spelled in any
way; and so may all of them together. -/
theorem exportDiagram_respelled : ∃ doc doc',
    ((Exporter.ofIds .sequential).exportDiagram repeatedAlias "Demo").1 = .ok doc ∧
      ((Exporter.ofIds .sequential).exportDiagram respelled "Demo").1 = .ok doc' ∧ doc = doc' ∧
      ((Exporter.ofIds .sequential).exportDiagram (rename (· ++ "_") repeatedAlias) "Demo").1 =
        .ok doc := by
  have hids : (Exporter.ofIds .sequential).ids.NeverRepeats := IdSupply.sequential_neverRepeats 0
  have hresolved : Resolved repeatedAlias ∧ Resolved respelled := by
    simp [Resolved, DeclaresEnds, Declares, repeatedAlias, respelled, Message.synchronous,
      Message.note]
  obtain ⟨doc, hdoc⟩ := (Exporter.ofIds .sequential).exportDiagram_of_resolved "Demo" hresolved.1
  obtain ⟨doc', hdoc'⟩ := (Exporter.ofIds .sequential).exportDiagram_of_resolved "Demo" hresolved.2
  obtain ⟨hsame, hrenamed⟩ :=
    exportDiagram_eq_iff_outline_eq.2 (Exporter.ofIds .sequential) repeatedAlias "Demo" doc hids
      hdoc
  have houtline : outline repeatedAlias = outline respelled := by decide
  refine ⟨doc, doc', hdoc, hdoc', (hsame respelled doc' hdoc').mpr houtline, hrenamed _ ?_⟩
  exact fun a b _ _ h => (String.append_left_inj "_").mp h

end SequenceXmi.Xmi
