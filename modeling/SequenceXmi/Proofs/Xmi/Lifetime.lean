import SequenceXmi.Proofs.Xmi.Replacing

/-! # The lifetime of an exporter

An exporter is used again and again: it exports diagrams, its model gets other names, and its supply
is taken out, drawn from, and put into a new exporter. The supply goes on through all of this, also
through exports that fail. So no identifier is ever drawn twice, and every document is the one that
a new exporter would give, with its numbers moved by those drawn before.

`history` lists what happens to an exporter, one `Episode` for each action. What one action draws is
said by `act_ids`, and what a whole history draws follows from it by induction
(`flatMap_issued_history`).

Main result: `history_issuesOnce`. -/

namespace SequenceXmi

/-! ## Identifiers that have been drawn -/

namespace IdSupply

/-- The identifiers that are drawn from a supply until it has become another one. -/
def issued (before after : IdSupply) : List String :=
  (List.range' before.drawn (after.drawn - before.drawn)).map before.name

/-- Identifiers are drawn from a supply, one after another, until it has become another one. -/
inductive Draws : IdSupply → List String → IdSupply → Prop where
  | none (s : IdSupply) : Draws s [] s
  | draw {s t : IdSupply} {ids : List String} (h : Draws s.draw.2 ids t) :
    Draws s (s.draw.1 :: ids) t

/-- A supply from which `c` identifiers are missing has issued just these. -/
theorem draws_issued (s : IdSupply) (c : Nat) :
    Draws s (issued s ⟨s.name, s.drawn + c⟩) ⟨s.name, s.drawn + c⟩ := by
  induction c generalizing s with
  | zero =>
    rw [issued, Nat.add_zero, Nat.sub_self]
    exact .none s
  | succ c ih =>
    have hcount : s.drawn + (c + 1) - s.drawn = c + 1 := Nat.add_sub_cancel_left ..
    have hrest : s.draw.2.drawn + c - s.draw.2.drawn = c := Nat.add_sub_cancel_left ..
    have hnext := ih s.draw.2
    rw [issued, hrest] at hnext
    rw [issued, hcount, List.range'_succ, List.map_cons]
    have hend : s.draw.2.drawn + c = s.drawn + (c + 1) := by
      rw [draw_snd_drawn]
      omega
    rw [hend] at hnext
    exact .draw hnext

/-- Of what is drawn after other identifiers, the others come first. -/
theorem issued_append {s t u : IdSupply} (hname : t.name = s.name) (hst : s.drawn ≤ t.drawn)
    (htu : t.drawn ≤ u.drawn) : issued s u = issued s t ++ issued t u := by
  have hcount : u.drawn - s.drawn = (t.drawn - s.drawn) + (u.drawn - t.drawn) := by omega
  have hstart : s.drawn + (t.drawn - s.drawn) = t.drawn := by omega
  unfold issued
  rw [hcount, ← List.range'_append_1, hstart, List.map_append, hname]

theorem length_issued (s t : IdSupply) : (issued s t).length = t.drawn - s.drawn := by
  rw [issued, List.length_map, List.length_range']

/-- A supply that does not repeat itself issues nothing twice. -/
theorem NeverRepeats.nodup_issued {s : IdSupply} (h : s.NeverRepeats) (t : IdSupply) :
    (issued s t).Nodup := by
  apply List.Nodup.map_on
  · intro i hi j hj hij
    exact h i j (List.mem_range'_1.mp hi).1 (List.mem_range'_1.mp hj).1 hij
  · exact List.nodup_range'

theorem issued_drawMany (s : IdSupply) (count : Nat) :
    issued s (s.drawMany count).2 = (s.drawMany count).1 := by
  have hcount : (s.drawMany count).2.drawn - s.drawn = count := Nat.add_sub_cancel_left ..
  rw [issued, hcount, List.range'_eq_map_range, List.map_map]
  rfl

/-! ### Numbers -/

/-- The number of a numbered identifier. -/
def number? (i : String) : Option Nat :=
  match i.toList with
  | '_' :: 'i' :: 'd' :: digits => (String.ofList digits).toNat?
  | _ => none

theorem number?_numbered (n : Nat) : number? (numbered n) = some n := by
  have htext : (numbered n).toList = '_' :: 'i' :: 'd' :: n.repr.toList := by
    rw [numbered, String.toList_append]
    rfl
  unfold number?
  rw [htext]
  show (String.ofList n.repr.toList).toNat? = some n
  rw [String.ofList_toList, Nat.toNat?_repr]

/-- A numbered identifier with its number moved by `k`; any other text stays as it is. -/
def shifted (k : Nat) (i : String) : String :=
  match number? i with
  | some n => numbered (n + k)
  | none => i

theorem shifted_numbered (k n : Nat) : shifted k (numbered n) = numbered (n + k) := by
  rw [shifted, number?_numbered]

end IdSupply

namespace Xmi

open Xml (Element Document)
open IdSupply (issued shifted)

/-! ## Identifiers in a document -/

/-- The identifiers in the attributes of an element: its own, and those of other elements. -/
def idsOf (e : Element) : List String := (e.attributes.filter fun a => holdsId a.1).map (·.2)

/-- All identifiers in a document. -/
def documentIds (doc : Document) : List String := (elements doc).flatMap idsOf

section DocumentIds

variable {s : Nat → String} {n : Nat} {d : Diagram} {modelName title : String}

/-- Only messages and events name other elements. -/
theorem idsOf_eq_ownIds (s : Nat → String) (n : Nat) (d : Diagram) (modelName title : String) :
    ∀ e ∈ elements ⟨modelElement s n d modelName title⟩,
      isMessage e ∨ isOccurrence e ∨ idsOf e = ownIds e := by
  apply forall_elements_layout
  case hmessage => exact fun _ _ => .inl rfl
  case hevent => exact fun _ _ => ⟨.inr (.inl rfl), .inr (.inl rfl)⟩
  all_goals intros; exact .inr (.inr rfl)

theorem mem_ownIds_of_attribute? {e : Element} {i : String} (h : e.attribute? idKey = some i) :
    i ∈ ownIds e := by
  obtain ⟨a, ha, rfl⟩ := Option.map_eq_some_iff.mp h
  have hkey : a.1 = idKey := by simpa using List.find?_some ha
  exact List.mem_map_of_mem (List.mem_filter.mpr ⟨List.mem_of_find?_eq_some ha, by simp [hkey]⟩)

/-- Whatever an element names is an identifier that some element has claimed. -/
theorem exists_ownIds_of_mem_idsOf (hd : Resolved d) {e : Element}
    (he : e ∈ elements ⟨modelElement s n d modelName title⟩) {i : String} (hi : i ∈ idsOf e) :
    ∃ e' ∈ elements ⟨modelElement s n d modelName title⟩, i ∈ ownIds e' := by
  have hmember {p : Nat × Message} (hp : p ∈ diagramMessages n d) :
      messageElement s p.1 p.2 ∈ elements ⟨modelElement s n d modelName title⟩ :=
    mem_elements_of_mem_filter (filter_isMessage_layout s n d modelName title)
      (List.mem_map_of_mem hp)
  rcases idsOf_eq_ownIds s n d modelName title e he with hmessage | hevent | hown
  · obtain ⟨p, hp, rfl⟩ := exists_of_isMessage he hmessage
    obtain ⟨hsend, hreceive⟩ := events_mem_elements (s := s) modelName title hp
    have hids : i ∈ [s p.1, s (p.1 + 1), s (p.1 + 2)] := hi
    simp only [List.mem_cons, List.not_mem_nil, or_false] at hids
    rcases hids with rfl | rfl | rfl
    · exact ⟨_, hmember hp, List.mem_singleton.mpr rfl⟩
    · exact ⟨_, hsend, List.mem_singleton.mpr rfl⟩
    · exact ⟨_, hreceive, List.mem_singleton.mpr rfl⟩
  · obtain ⟨p, hp, hcases⟩ := exists_of_isOccurrence he hevent
    -- An event names itself, the lifeline that it covers, and its message.
    have hids : ∃ own covered, e.attribute? idKey = some own ∧
        e.attribute? "covered" = some covered ∧ i ∈ [own, covered, s p.1] := by
      rcases hcases with rfl | rfl <;> exact ⟨_, _, rfl, rfl, hi⟩
    obtain ⟨own, covered, hown, hcovered, hmem⟩ := hids
    simp only [List.mem_cons, List.not_mem_nil, or_false] at hmem
    rcases hmem with rfl | rfl | rfl
    · exact ⟨e, he, mem_ownIds_of_attribute? hown⟩
    · obtain ⟨l, hl, -, hid⟩ := covered_lifeline_layout hd e he _ hcovered
      exact ⟨l, hl, mem_ownIds_of_attribute? hid⟩
    · exact ⟨_, hmember hp, List.mem_singleton.mpr rfl⟩
  · rw [hown] at hi
    exact ⟨e, he, hi⟩

/-- The identifiers in a document are among those that its export draws. -/
theorem mem_issued_of_mem_documentIds (hd : Resolved d) {i : String}
    (hi : i ∈ documentIds ⟨modelElement s n d modelName title⟩) :
    i ∈ issued ⟨s, n⟩ ⟨s, documentEnd n d⟩ := by
  obtain ⟨e, he, hi⟩ := List.mem_flatMap.mp hi
  have hown := List.mem_flatMap.mpr (exists_ownIds_of_mem_idsOf hd he hi)
  rw [ownIds_layout] at hown
  obtain ⟨j, hj, rfl⟩ := List.mem_map.mp hown
  exact List.mem_map_of_mem ((documentNumbers_perm n d).mem_iff.mp hj)

end DocumentIds

/-! ## What happens to an exporter -/

/-- What can be done with an exporter. -/
inductive Action where
  /-- A diagram is exported. -/
  | exportDiagram (d : Diagram) (title : String)
  /-- The model gets another name. -/
  | withModelName (name : String)
  /-- The supply is taken out, some identifiers are drawn from it, and a new exporter is made of
  it. -/
  | rebuild (count : Nat)

/-- What an action gives. -/
inductive Outcome where
  /-- A document, or a failure. -/
  | exported (result : Except Unresolved Document)
  /-- Identifiers. -/
  | drawn (ids : List String)
  /-- Nothing. -/
  | done

/-- The identifiers that an action gives away. -/
def Outcome.ids : Outcome → List String
  | .exported (.ok doc) => documentIds doc
  | .exported (.error _) => []
  | .drawn ids => ids
  | .done => []

namespace Exporter

/-- An action on an exporter: what it gives, and what has become of the exporter. -/
def act (x : Exporter) : Action → Outcome × Exporter
  | .exportDiagram d title => (.exported (x.exportDiagram d title).1, (x.exportDiagram d title).2)
  | .withModelName name => (.done, x.withModelName name)
  | .rebuild count => (.drawn (x.ids.drawMany count).1, .ofIds (x.ids.drawMany count).2)

end Exporter

/-- An action on an exporter as it is then. -/
structure Episode where
  before : Exporter
  action : Action

namespace Episode

/-- What the action gives. -/
def outcome (e : Episode) : Outcome := (e.before.act e.action).1

/-- What the exporter has become. -/
def after (e : Episode) : Exporter := (e.before.act e.action).2

/-- The identifiers that are drawn meanwhile. -/
def issued (e : Episode) : List String := IdSupply.issued e.before.ids e.after.ids

end Episode

/-- What happens to an exporter, action by action. -/
def history (x : Exporter) : List Action → List Episode
  | [] => []
  | a :: as => ⟨x, a⟩ :: history (x.act a).2 as

/-- What becomes of the exporter in the end. -/
def afterAll (x : Exporter) (as : List Action) : Exporter := as.foldl (fun x a => (x.act a).2) x

/-! ## One action -/

/-- An action goes on with the supply of the exporter; all it can do to it is draw from it. -/
theorem act_ids (x : Exporter) (a : Action) :
    ∃ c, (x.act a).2.ids = ⟨x.ids.name, x.ids.drawn + c⟩ := by
  cases a with
  | exportDiagram d title =>
    have hsame : Carries id x.ids.name x.ids.drawn x.ids.name x.ids.drawn := fun _ => rfl
    obtain ⟨c, hafter, -, -⟩ := exportDiagram_of_carries (x := x) (y := x) rfl hsame d title
    refine ⟨c, ?_⟩
    show (x.exportDiagram d title).2.ids = _
    rw [hafter]
  | withModelName name => exact ⟨0, rfl⟩
  | rebuild count => exact ⟨count, rfl⟩

theorem Episode.draws (e : Episode) : IdSupply.Draws e.before.ids e.issued e.after.ids := by
  obtain ⟨c, hc⟩ := act_ids e.before e.action
  show IdSupply.Draws e.before.ids (IdSupply.issued e.before.ids (e.before.act e.action).2.ids)
    (e.before.act e.action).2.ids
  rw [hc]
  exact IdSupply.draws_issued e.before.ids c

/-- What an action gives away it has drawn itself. -/
theorem Episode.mem_issued {e : Episode} {i : String} (h : i ∈ e.outcome.ids) : i ∈ e.issued := by
  obtain ⟨x, a⟩ := e
  cases a with
  | exportDiagram d title =>
    change i ∈ (Outcome.exported (x.exportDiagram d title).1).ids at h
    show i ∈ IdSupply.issued x.ids (x.exportDiagram d title).2.ids
    rcases hresult : x.exportDiagram d title with ⟨result, y⟩
    rw [hresult] at h
    cases result with
    | error u => exact absurd h List.not_mem_nil
    | ok doc =>
      obtain ⟨hd, rfl, rfl⟩ := Exporter.of_exportDiagram_ok hresult
      exact mem_issued_of_mem_documentIds hd h
  | withModelName name => exact absurd h List.not_mem_nil
  | rebuild count =>
    show i ∈ IdSupply.issued x.ids (x.ids.drawMany count).2
    rw [IdSupply.issued_drawMany]
    exact h

/-- An export gives what it would give with no identifier drawn before, with all numbers moved by
those that are. -/
theorem exportDiagram_shifted {x : Exporter} {k : Nat}
    (hids : x.ids = { IdSupply.sequential with drawn := k }) (d : Diagram) (title : String) :
    (x.exportDiagram d title).1 =
      (((Exporter.ofIds .sequential).withModelName x.modelName).exportDiagram d title).1.map
        (replaceDocumentIds (shifted k)) := by
  have hcarries : Carries (shifted k) IdSupply.sequential.name 0 x.ids.name x.ids.drawn := by
    intro i
    rw [hids]
    show shifted k (IdSupply.numbered (0 + i + 1)) = IdSupply.numbered (k + i + 1)
    rw [IdSupply.shifted_numbered]
    congr 1
    omega
  obtain ⟨c, -, -, hresult⟩ := exportDiagram_of_carries
    (x := (Exporter.ofIds .sequential).withModelName x.modelName) (y := x) rfl hcarries d title
  exact hresult

/-! ## All actions -/

theorem afterAll_ids (x : Exporter) (as : List Action) :
    ∃ c, (afterAll x as).ids = ⟨x.ids.name, x.ids.drawn + c⟩ := by
  induction as generalizing x with
  | nil => exact ⟨0, rfl⟩
  | cons a as ih =>
    obtain ⟨c, hc⟩ := act_ids x a
    obtain ⟨c', hc'⟩ := ih (x.act a).2
    refine ⟨c + c', ?_⟩
    show (afterAll (x.act a).2 as).ids = _
    rw [hc', hc, Nat.add_assoc]

/-- Action by action, nothing else is drawn than what is drawn from the beginning to the end. -/
theorem flatMap_issued_history (x : Exporter) (as : List Action) :
    (history x as).flatMap Episode.issued = IdSupply.issued x.ids (afterAll x as).ids := by
  induction as generalizing x with
  | nil =>
    show [] = IdSupply.issued x.ids x.ids
    rw [IdSupply.issued, Nat.sub_self]
    rfl
  | cons a as ih =>
    obtain ⟨c, hc⟩ := act_ids x a
    obtain ⟨c', hc'⟩ := afterAll_ids (x.act a).2 as
    have hname : (x.act a).2.ids.name = x.ids.name := by rw [hc]
    have hfirst : x.ids.drawn ≤ (x.act a).2.ids.drawn := by
      rw [hc]
      exact Nat.le_add_right ..
    have hrest : (x.act a).2.ids.drawn ≤ (afterAll (x.act a).2 as).ids.drawn := by
      rw [hc']
      exact Nat.le_add_right ..
    show IdSupply.issued x.ids (x.act a).2.ids ++
      (history (x.act a).2 as).flatMap Episode.issued =
      IdSupply.issued x.ids (afterAll (x.act a).2 as).ids
    rw [ih, IdSupply.issued_append hname hfirst hrest]

/-- At any time the supply is the one from the beginning, and what is missing has been drawn. -/
theorem before_ids_of_history {x : Exporter} {as : List Action} {earlier later : List Episode}
    {e : Episode} (h : history x as = earlier ++ e :: later) :
    e.before.ids = ⟨x.ids.name, x.ids.drawn + (earlier.flatMap Episode.issued).length⟩ := by
  induction earlier generalizing x as with
  | nil =>
    cases as with
    | nil => cases h
    | cons a as =>
      obtain ⟨rfl, -⟩ := List.cons.inj h
      rfl
  | cons first earlier ih =>
    cases as with
    | nil => cases h
    | cons a as =>
      obtain ⟨rfl, hrest⟩ := List.cons.inj h
      obtain ⟨c, hc⟩ := act_ids x a
      have hcount : (Episode.issued ⟨x, a⟩).length = c := by
        show (IdSupply.issued x.ids (x.act a).2.ids).length = c
        rw [IdSupply.length_issued, hc]
        exact Nat.add_sub_cancel_left ..
      rw [ih hrest, hc, List.flatMap_cons, List.length_append, hcount, Nat.add_assoc]

/-! ## A whole life -/

/-- Through the life of an exporter whose supply has issued `k` numbered identifiers before, nothing
is issued twice. -/
structure IssuesOnce (k : Nat) (episodes : List Episode) : Prop where
  /-- Each exporter has become the next one by drawing the identifiers that are listed. -/
  draws : ∀ e ∈ episodes, IdSupply.Draws e.before.ids e.issued e.after.ids
  /-- No identifier is drawn twice. -/
  issued_nodup : (episodes.flatMap Episode.issued).Nodup
  /-- Documents hold only identifiers drawn for them, and only drawn identifiers are given away. -/
  ids_issued : ∀ e ∈ episodes, ∀ i ∈ e.outcome.ids, i ∈ e.issued
  /-- No identifier is in two documents, or in a document and drawn outside of it. -/
  ids_disjoint : episodes.Pairwise fun e e' => e.outcome.ids.Disjoint e'.outcome.ids
  /-- An export gives what a new exporter of the same model name would give, with all numbers moved
  by as many identifiers as have been drawn before. -/
  exported_shifted : ∀ earlier e later d title, episodes = earlier ++ e :: later →
    e.action = .exportDiagram d title →
    e.outcome = .exported
      ((((Exporter.ofIds .sequential).withModelName e.before.modelName).exportDiagram d title).1.map
        (replaceDocumentIds (shifted (k + (earlier.flatMap Episode.issued).length))))

/-- Whatever is done with an exporter, in any order and also if exports fail, nothing is issued
twice. -/
theorem history_issuesOnce (k : Nat) (modelName : String) (as : List Action) :
    IssuesOnce k (history ⟨{ IdSupply.sequential with drawn := k }, modelName⟩ as) := by
  have hnodup : ((history ⟨{ IdSupply.sequential with drawn := k }, modelName⟩ as).flatMap
      Episode.issued).Nodup := by
    rw [flatMap_issued_history]
    exact (IdSupply.sequential_neverRepeats k).nodup_issued _
  refine ⟨fun e _ => e.draws, hnodup, fun e _ i hi => e.mem_issued hi, ?_, ?_⟩
  · refine (List.nodup_flatMap.mp hnodup).2.imp ?_
    intro e e' hdisjoint i hi hi'
    exact hdisjoint (e.mem_issued hi) (e'.mem_issued hi')
  · intro earlier e later d title hsplit haction
    obtain ⟨x, a⟩ := e
    obtain rfl : a = .exportDiagram d title := haction
    exact congrArg Outcome.exported (exportDiagram_shifted (before_ids_of_history hsplit) d title)

end Xmi

end SequenceXmi
