import SequenceXmi.Proofs.Xmi.Layout

/-! # The outcome of an export

An export has one of two outcomes, and the diagram alone decides which (`exportDiagram_outcome`):
there is a document if and only if every message names declared participants, and otherwise the
failure names the first message that does not. The identifiers play no part in it. -/

namespace SequenceXmi.Xmi

/-! ## The first message without an end -/

/-- A failure names an end of the message that is not declared: its sender if that is not, else its
receiver. -/
inductive IsCulprit (d : Diagram) (m : Message) : Unresolved → Prop where
  | sender (undeclared : ¬ Declares d m.sender) : IsCulprit d m ⟨m.sender, m.text⟩
  | receiver (declared : Declares d m.sender) (undeclared : ¬ Declares d m.receiver) :
    IsCulprit d m ⟨m.receiver, m.text⟩

/-- A failure names the first message of which an end is not declared. -/
def IsFirstCulprit (d : Diagram) (u : Unresolved) : Prop :=
  ∃ before m after, d.allMessages = before ++ m :: after ∧ (∀ b ∈ before, DeclaresEnds d b) ∧
    IsCulprit d m u

/-- A message that a failure names has an undeclared end. -/
theorem IsCulprit.not_declaresEnds {d : Diagram} {m : Message} {u : Unresolved}
    (h : IsCulprit d m u) : ¬ DeclaresEnds d m := by
  intro hends
  cases h with
  | sender hsender => exact hsender hends.1
  | receiver _ hreceiver => exact hreceiver hends.2

/-- A message with an undeclared end is named in one way. -/
theorem IsCulprit.unique {d : Diagram} {m : Message} {u v : Unresolved} (hu : IsCulprit d m u)
    (hv : IsCulprit d m v) : u = v := by
  cases hu with
  | sender hsender =>
    cases hv with
    | sender => rfl
    | receiver hdeclared => exact absurd hdeclared hsender
  | receiver hdeclared =>
    cases hv with
    | sender hsender => exact absurd hdeclared hsender
    | receiver => rfl

/-- At most one message comes first. -/
theorem IsFirstCulprit.unique {d : Diagram} {u v : Unresolved} (hu : IsFirstCulprit d u)
    (hv : IsFirstCulprit d v) : u = v := by
  classical
  have hfind {w : Unresolved} {before after : List Message} {m : Message}
      (hsplit : d.allMessages = before ++ m :: after) (hbefore : ∀ b ∈ before, DeclaresEnds d b)
      (hm : IsCulprit d m w) :
      d.allMessages.find? (fun m => !decide (DeclaresEnds d m)) = some m :=
    List.find?_eq_some_iff_append.mpr ⟨by simpa using hm.not_declaresEnds, before, after, hsplit,
      by simpa using hbefore⟩
  obtain ⟨_, m, _, hsplit, hbefore, hm⟩ := hu
  obtain ⟨_, m', _, hsplit', hbefore', hm'⟩ := hv
  have hsame := (hfind hsplit hbefore hm).symm.trans (hfind hsplit' hbefore' hm')
  obtain rfl := Option.some.inj hsame
  exact hm.unique hm'

theorem isSome_find?_coversOf {s : Nat → String} {n : Nat} {d : Diagram} {aliasName : String} :
    ((coversOf s n d).find? aliasName).isSome ↔ Declares d aliasName := by
  simp only [Covers.isSome_find?_iff, coversOf_map_fst, Declares, List.mem_map]

/-- The export finds the end that is not declared. -/
theorem isCulprit_culprit {s : Nat → String} {n : Nat} {d : Diagram} {m : Message}
    (h : ¬ DeclaresEnds d m) : IsCulprit d m ((coversOf s n d).culprit m) := by
  unfold Covers.culprit
  split
  · next hsender =>
    have hdeclared := isSome_find?_coversOf.mp hsender
    exact .receiver hdeclared fun hreceiver => h ⟨hdeclared, hreceiver⟩
  · next hsender => exact .sender fun hdeclared => hsender (isSome_find?_coversOf.mpr hdeclared)

theorem resolved_iff {d : Diagram} : Resolved d ↔ ∀ m ∈ d.allMessages, DeclaresEnds d m := by
  simp only [Resolved, Diagram.allMessages, List.forall_mem_append, List.forall_mem_flatMap]

/-! ## Outcomes -/

theorem Exporter.exportDiagram_of_resolved (x : Exporter) {d : Diagram} (title : String)
    (h : Resolved d) : ∃ doc, (x.exportDiagram d title).1 = .ok doc :=
  ⟨_, by rw [exportDiagram_of_ends (ends_document_of_resolved h)]⟩

/-- An export that fails names the first message without an end. -/
theorem Exporter.exportDiagram_of_not_resolved (x : Exporter) {d : Diagram} (title : String)
    (h : ¬ Resolved d) : ∃ u, IsFirstCulprit d u ∧ (x.exportDiagram d title).1 = .error u := by
  obtain ⟨before, m, after, c, hsplit, hbefore, hm, hends⟩ :=
    ends_document_error x.modelName title h
  refine ⟨(coversOf x.ids.name x.ids.drawn d).culprit m,
    ⟨before, m, after, hsplit, hbefore, isCulprit_culprit hm⟩, ?_⟩
  rw [exportDiagram_of_ends (hends x.ids.name x.ids.drawn)]

/-- There is a document if and only if every sender and every receiver is declared, and there is a
failure if and only if it names the first message of which an end is not, and the sender of that
message if it is not declared, else the receiver. -/
theorem exportDiagram_outcome (x : Exporter) (d : Diagram) (title : String) :
    ((∃ doc, (x.exportDiagram d title).1 = .ok doc) ↔ Resolved d) ∧
      ∀ u, (x.exportDiagram d title).1 = .error u ↔ IsFirstCulprit d u := by
  by_cases hd : Resolved d
  · obtain ⟨doc, hdoc⟩ := x.exportDiagram_of_resolved title hd
    refine ⟨⟨fun _ => hd, fun _ => ⟨doc, hdoc⟩⟩, fun u => ⟨fun herror => ?_, fun hu => ?_⟩⟩
    · rw [hdoc] at herror
      cases herror
    · obtain ⟨_, m, _, hsplit, -, hm⟩ := hu
      have hmem : m ∈ d.allMessages := by simp [hsplit]
      exact absurd (resolved_iff.mp hd m hmem) hm.not_declaresEnds
  · obtain ⟨u, hu, herror⟩ := x.exportDiagram_of_not_resolved title hd
    refine ⟨⟨fun ⟨doc, hdoc⟩ => ?_, fun hresolved => absurd hresolved hd⟩, fun v =>
      ⟨fun hv => ?_, fun hv => ?_⟩⟩
    · rw [herror] at hdoc
      cases hdoc
    · rw [herror] at hv
      exact Except.error.inj hv ▸ hu
    · rw [herror, hu.unique hv]

end SequenceXmi.Xmi
