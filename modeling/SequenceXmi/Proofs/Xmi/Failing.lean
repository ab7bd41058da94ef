import SequenceXmi.Proofs.Xmi.Outcome
import SequenceXmi.Proofs.Xmi.Numbering

/-! # How far a failing export comes

An export looks at the messages in a fixed order: first those at top level, then those of one
fragment after another. It stops at the first one of which an end is not declared, and what was
drawn until then stays drawn: the identifiers of the model, of its interaction and of all
lifelines, those of the messages before, and, once a fragment is begun, the three of the fragment
itself.

`Place.drawnBefore` counts them by the position of the failing message. Main result:
`exportDiagram_failed`. -/

namespace SequenceXmi.Xmi

/-! ## Places of messages -/

/-- Where a message stands in a diagram. -/
inductive Place where
  /-- At top level, after as many other messages. -/
  | topLevel (i : Nat)
  /-- In the fragment at position `j`, after `i` other messages of it. -/
  | inFragment (j i : Nat)

namespace Place

/-- The message at a place, if there is one. -/
def message? (d : Diagram) : Place → Option Message
  | topLevel i => d.topLevel[i]?
  | inFragment j i => d.fragments[j]?.bind (·.messages[i]?)

/-- The message at one place is exported before that at another. -/
inductive Before : Place → Place → Prop where
  | topLevel {i i' : Nat} (h : i < i') : Before (topLevel i) (topLevel i')
  | intoFragments (i j i' : Nat) : Before (topLevel i) (inFragment j i')
  | fragments {j j' : Nat} (h : j < j') (i i' : Nat) : Before (inFragment j i) (inFragment j' i')
  | messages (j : Nat) {i i' : Nat} (h : i < i') : Before (inFragment j i) (inFragment j i')

/-- How many identifiers an export draws before it comes to the message at a place. -/
def drawnBefore (d : Diagram) : Place → Nat
  | topLevel i => 2 + 2 * d.lifelines.length + 3 * i
  | inFragment j i => 2 + 2 * d.lifelines.length + 3 * d.topLevel.length + 3 * (j + 1) +
      3 * ((d.fragments.take j).foldr (fun f n => f.messages.length + n) 0 + i)

end Place

/-- At this place stands the first message of which an end is not declared. -/
structure IsFirstUnresolved (d : Diagram) (place : Place) : Prop where
  unresolved : ∃ m, place.message? d = some m ∧ ¬ DeclaresEnds d m
  first : ∀ p : Place, p.Before place → ∀ m, p.message? d = some m → DeclaresEnds d m

/-! ## Lists around a position -/

section Positions

variable {α : Type} {xs : List α} {x : α} {i : Nat}

theorem eq_take_append_cons_drop (h : xs[i]? = some x) :
    xs = xs.take i ++ x :: xs.drop (i + 1) := by
  obtain ⟨hi, rfl⟩ := List.getElem?_eq_some_iff.mp h
  rw [← List.drop_eq_getElem_cons hi, List.take_append_drop]

/-- The items before a position are the ones at smaller positions. -/
theorem exists_lt_of_mem_take (h : x ∈ xs.take i) : ∃ k, k < i ∧ xs[k]? = some x := by
  obtain ⟨k, hk, rfl⟩ := List.mem_take_iff_getElem.mp h
  exact ⟨k, by omega, List.getElem?_eq_getElem (by omega)⟩

/-- An item at a small position of two lists is one of the first. -/
theorem mem_of_getElem?_append {ys zs : List α} {k : Nat} (hk : k < ys.length)
    (h : (ys ++ zs)[k]? = some x) : x ∈ ys := by
  rw [List.getElem?_append_left hk] at h
  exact List.mem_of_getElem? h

/-- Behind a list stands the item that is put there. -/
theorem getElem?_length_append (ys zs : List α) : (ys ++ x :: zs)[ys.length]? = some x := by
  rw [List.getElem?_append_right (Nat.le_refl _), Nat.sub_self, List.getElem?_cons_zero]

end Positions

/-! ## The first message without an end -/

/-- If a message has no declared end, there is a first one. -/
theorem exists_isFirstUnresolved {d : Diagram} (h : ¬ Resolved d) :
    ∃ place, IsFirstUnresolved d place := by
  by_cases htop : ∀ m ∈ d.topLevel, DeclaresEnds d m
  · -- It stands in the first fragment that has such a message.
    have hfragments : ¬ ∀ f ∈ d.fragments, ∀ m ∈ f.messages, DeclaresEnds d m :=
      fun hall => h ⟨htop, hall⟩
    obtain ⟨fs, f, gs, hsplit, hfs, hf⟩ := exists_first_not hfragments
    obtain ⟨ms, m, ns, hmessages, hms, hm⟩ := exists_first_not hf
    have hat (i : Nat) : (Place.inFragment fs.length i).message? d = f.messages[i]? := by
      show d.fragments[fs.length]?.bind (·.messages[i]?) = f.messages[i]?
      rw [hsplit, getElem?_length_append]
      rfl
    refine ⟨.inFragment fs.length ms.length, ⟨m, ?_, hm⟩, ?_⟩
    · rw [hat, hmessages, getElem?_length_append]
    · intro p hp b hb
      cases hp with
      | intoFragments i => exact htop b (List.mem_of_getElem? hb)
      | @fragments j _ hj i =>
        obtain ⟨g, hg, hb⟩ := Option.bind_eq_some_iff.mp hb
        rw [hsplit] at hg
        exact hfs g (mem_of_getElem?_append hj hg) b (List.mem_of_getElem? hb)
      | messages _ hi =>
        rw [hat, hmessages] at hb
        exact hms b (mem_of_getElem?_append hi hb)
  · obtain ⟨ms, m, ns, hsplit, hms, hm⟩ := exists_first_not htop
    refine ⟨.topLevel ms.length, ⟨m, ?_, hm⟩, ?_⟩
    · show d.topLevel[ms.length]? = some m
      rw [hsplit, getElem?_length_append]
    · intro p hp b hb
      cases hp with
      | @topLevel i _ hi =>
        have hat : d.topLevel[i]? = some b := hb
        rw [hsplit] at hat
        exact hms b (mem_of_getElem?_append hi hat)

/-- The messages before it have both ends among the lifelines. -/
theorem IsFirstUnresolved.resolves {d : Diagram} {place p : Place} {m : Message}
    (h : IsFirstUnresolved d place) (hp : p.Before place) (hm : p.message? d = some m)
    (s : Nat → String) (n : Nat) : (coversOf s n d).Resolves m :=
  resolves_iff.mpr (h.first p hp m hm)

/-! ## Identifiers drawn before a message -/

section Counts

variable {d : Diagram} {i j : Nat} (n : Nat)

theorem add_drawnBefore_topLevel (hi : i ≤ d.topLevel.length) :
    n + (Place.topLevel i).drawnBefore d =
      messagesFrom n d + total messageCost (d.topLevel.take i) := by
  rw [messagesFrom, total_lifelineCost, total_messageCost, List.length_take_of_le hi]
  show n + (2 + 2 * d.lifelines.length + 3 * i) = _
  omega

/-- The fragments in front are counted with all their messages, the fragment itself with those that
come before. -/
theorem add_drawnBefore_inFragment {f : Fragment} (hj : j ≤ d.fragments.length)
    (hi : i ≤ f.messages.length) :
    n + (Place.inFragment j i).drawnBefore d =
      fragmentsFrom n d + total fragmentCost (d.fragments.take j) +
        (3 + total messageCost (f.messages.take i)) := by
  rw [fragmentsFrom, messagesFrom, total_lifelineCost, total_messageCost, total_messageCost,
    total_fragmentCost, List.length_take_of_le hj, List.length_take_of_le hi]
  show n + (2 + 2 * d.lifelines.length + 3 * d.topLevel.length + 3 * (j + 1) +
    3 * ((d.fragments.take j).foldr (fun f n => f.messages.length + n) 0 + i)) = _
  omega

end Counts

/-- The export of a diagram ends at its first message without an end. -/
theorem ends_document_of_isFirstUnresolved {d : Diagram} {place : Place}
    (h : IsFirstUnresolved d place) (s : Nat → String) (n : Nat) (modelName title : String) :
    ∃ m, place.message? d = some m ∧ ¬ DeclaresEnds d m ∧
      Ends s (document modelName d title) n (.error ((coversOf s n d).culprit m))
        (n + place.drawnBefore d) := by
  obtain ⟨m, hmessage, hm⟩ := h.unresolved
  refine ⟨m, hmessage, hm, ?_⟩
  have hnot : ¬ (coversOf s n d).Resolves m := mt resolves_iff.mp hm
  cases place with
  | topLevel i =>
    have hi : d.topLevel[i]? = some m := hmessage
    have hbefore : ∀ b ∈ d.topLevel.take i, (coversOf s n d).Resolves b := by
      intro b hb
      obtain ⟨k, hk, hb⟩ := exists_lt_of_mem_take hb
      exact h.resolves (p := .topLevel k) (.topLevel hk) hb s n
    rw [add_drawnBefore_topLevel n (List.getElem?_eq_some_iff.mp hi).1.le]
    exact ends_document_topLevel_error (eq_take_append_cons_drop hi) hbefore hnot
  | inFragment j i =>
    obtain ⟨f, hj, hi⟩ := Option.bind_eq_some_iff.mp hmessage
    -- Three groups of messages come before: those at top level, those of the fragments in front,
    -- and those in front within the fragment.
    have htop : ∀ b ∈ d.topLevel, (coversOf s n d).Resolves b := by
      intro b hb
      obtain ⟨k, hb⟩ := List.mem_iff_getElem?.mp hb
      exact h.resolves (p := .topLevel k) (.intoFragments k j i) hb s n
    have hfragments : ∀ g ∈ d.fragments.take j, ∀ b ∈ g.messages,
        (coversOf s n d).Resolves b := by
      intro g hg b hb
      obtain ⟨k, hk, hg⟩ := exists_lt_of_mem_take hg
      obtain ⟨l, hb⟩ := List.mem_iff_getElem?.mp hb
      have hat : (Place.inFragment k l).message? d = some b :=
        Option.bind_eq_some_iff.mpr ⟨g, hg, hb⟩
      exact h.resolves (.fragments hk l i) hat s n
    have hbefore : ∀ b ∈ f.messages.take i, (coversOf s n d).Resolves b := by
      intro b hb
      obtain ⟨k, hk, hb⟩ := exists_lt_of_mem_take hb
      have hat : (Place.inFragment j k).message? d = some b :=
        Option.bind_eq_some_iff.mpr ⟨f, hj, hb⟩
      exact h.resolves (.messages j hk) hat s n
    rw [add_drawnBefore_inFragment n (List.getElem?_eq_some_iff.mp hj).1.le
      (List.getElem?_eq_some_iff.mp hi).1.le]
    exact ends_document_fragment_error htop (eq_take_append_cons_drop hj) hfragments
      (eq_take_append_cons_drop hi) hbefore hnot

/-! ## Exporters after a failure -/

/-- A failed export has met a first message of which an end is not declared, and the failure names
it. The exporter has then drawn the identifiers before that message and no others; else it is as it
was. The next document takes its identifiers from there. -/
theorem exportDiagram_failed {x y : Exporter} {d : Diagram} {title : String} {u : Unresolved}
    (h : x.exportDiagram d title = (.error u, y)) :
    (∃ place, IsFirstUnresolved d place) ∧
      ∀ place, IsFirstUnresolved d place →
        (∃ m, place.message? d = some m ∧ IsCulprit d m u) ∧
          y = { x with ids := { x.ids with drawn := x.ids.drawn + place.drawnBefore d } } ∧
          ∀ d' title' doc z, y.exportDiagram d' title' = (.ok doc, z) →
            doc = ⟨modelElement x.ids.name (x.ids.drawn + place.drawnBefore d) d' x.modelName
              title'⟩ := by
  have hresolved : ¬ Resolved d := by
    intro hd
    rw [Exporter.exportDiagram_of_ends (ends_document_of_resolved hd)] at h
    cases (Prod.mk.inj h).1
  refine ⟨exists_isFirstUnresolved hresolved, ?_⟩
  intro place hplace
  obtain ⟨m, hmessage, hm, hends⟩ := ends_document_of_isFirstUnresolved hplace x.ids.name
    x.ids.drawn x.modelName title
  rw [Exporter.exportDiagram_of_ends hends] at h
  obtain ⟨herror, hy⟩ := Prod.mk.inj h
  obtain rfl := Except.error.inj herror
  refine ⟨⟨m, hmessage, isCulprit_culprit hm⟩, hy.symm, ?_⟩
  intro d' title' doc z hnext
  rw [(Exporter.of_exportDiagram_ok hnext).2.1, ← hy]

/-- A diagram whose second fragment names somebody who is not declared, after one message that it
can say. One alias is declared twice. -/
def strangerInFragment : Diagram where
  lifelines := [⟨"A", "Alice"⟩, ⟨"A", "A"⟩, ⟨"B", "B"⟩]
  topLevel := [.synchronous "A" "B" "hi"]
  fragments := [⟨.alt, "x", [.note "B" "n", .synchronous "B" "A" ""]⟩,
    ⟨.loop, "y", [.synchronous "A" "B" "again", .synchronous "A" "C" "who?"]⟩]

/-- Only the last of its five messages has an end that is not declared. -/
theorem isFirstUnresolved_stranger :
    IsFirstUnresolved strangerInFragment (.inFragment 1 1) := by
  have hdeclares (m : Message)
      (hsender : m.sender ∈ strangerInFragment.lifelines.map (·.aliasName))
      (hreceiver : m.receiver ∈ strangerInFragment.lifelines.map (·.aliasName)) :
      DeclaresEnds strangerInFragment m :=
    ⟨List.mem_map.mp hsender, List.mem_map.mp hreceiver⟩
  refine ⟨⟨_, rfl, ?_⟩, ?_⟩
  · simp [DeclaresEnds, Declares, strangerInFragment, Message.synchronous]
  · intro p hp m hm
    cases hp with
    | intoFragments i =>
      obtain rfl := List.mem_singleton.mp (List.mem_of_getElem? hm)
      exact hdeclares _ (by decide) (by decide)
    | @fragments j _ hj i =>
      obtain rfl : j = 0 := by omega
      obtain rfl | rfl := List.mem_pair.mp (List.mem_of_getElem? hm)
      · exact hdeclares _ (by decide) (by decide)
      · exact hdeclares _ (by decide) (by decide)
    | @messages _ i _ hi =>
      obtain rfl : i = 0 := by omega
      obtain rfl := Option.some.inj hm
      exact hdeclares _ (by decide) (by decide)

/-- That message fails after 26 identifiers: if four were drawn before, the next document begins
with number 31. -/
theorem exportDiagram_failed_stranger :
    let x : Exporter := ⟨{ IdSupply.sequential with drawn := 4 }, "Model"⟩
    let y : Exporter := ⟨{ IdSupply.sequential with drawn := 30 }, "Model"⟩
    ∃ u, x.exportDiagram strangerInFragment "Demo" = (.error u, y) ∧
      IsFirstUnresolved strangerInFragment (.inFragment 1 1) ∧
      ∀ d title doc z, y.exportDiagram d title = (.ok doc, z) →
        doc = ⟨modelElement IdSupply.sequential.name 30 d "Model" title⟩ := by
  intro x y
  obtain ⟨m, -, -, hends⟩ := ends_document_of_isFirstUnresolved isFirstUnresolved_stranger
    x.ids.name x.ids.drawn x.modelName "Demo"
  have hfailed := Exporter.exportDiagram_of_ends (x := x) hends
  refine ⟨_, hfailed, isFirstUnresolved_stranger, ?_⟩
  exact ((exportDiagram_failed hfailed).2 _ isFirstUnresolved_stranger).2.2

end SequenceXmi.Xmi
