import Mathlib.Data.List.Lex
import SequenceXmi.Proofs.Xml.RoundTrip

/-! # Document order

The elements below an element are listed by a walk with a stack. The list is the one that recursion
gives (`descendants_eq_preorder`), and every step of the walk is accounted for: what it has taken so
far is the front of that list, and what is still on the stack leads to the rest (`walk_spec`).

Elements may be equal without being the same, so it takes their places in the tree to say that each
is listed once: the list goes through all places in ascending order (`pairwise_places`,
`mem_places`, `map_at?_places`).

The text of an element is its tags one after another (`write_eq_tags`), and of these the start tags
and the empty ones have the names of the elements in the same order.

Main result: `descendants_documentOrder`. -/

namespace SequenceXmi.Xml

open Text (afterSpaces scanAll)

namespace Element

/-! ## The walk as a list -/

/-- What is on the stack is visited like trees next to each other. -/
theorem visit_eq_preorderAll (stack : List Element) : visit stack = preorderAll stack := by
  induction stack using visit.induct with
  | case1 => rw [visit, preorderAll]
  | case2 e stack ih => rw [visit, ih, preorderAll_append, preorderAll, preorder_eq]

theorem descendants_eq_preorder (e : Element) : e.descendants = e.preorder := by
  rw [descendants, visit_eq_preorderAll, preorder_eq]

/-- Each element comes before those below it, and a child with all below it before the next. -/
theorem preorderAll_eq_flatMap (es : List Element) :
    preorderAll es = es.flatMap fun c => c :: c.preorder := by
  induction es with
  | nil => rfl
  | cons e es ih => rw [preorderAll, ih, List.flatMap_cons, List.cons_append]

/-! ## The walk step by step -/

/-- Takes an element off the end of a stack and puts its children there, the first of them last. -/
def takeLast? (stack : List Element) : Option (Element × List Element) :=
  stack.getLast?.map fun e => (e, stack.dropLast ++ e.children.reverse)

/-- The elements that so many steps take off a stack, and the stack after them. -/
def walk : Nat → List Element → List Element × List Element
  | 0, stack => ([], stack)
  | steps + 1, stack =>
    match takeLast? stack with
    | none => ([], stack)
    | some (e, stack) =>
      let (taken, left) := walk steps stack
      (e :: taken, left)

theorem takeLast?_concat (stack : List Element) (e : Element) :
    takeLast? (stack ++ [e]) = some (e, stack ++ e.children.reverse) := by
  rw [takeLast?, List.getLast?_concat, List.dropLast_concat]
  rfl

theorem preorderAll_eq_nil {es : List Element} : preorderAll es = [] ↔ es = [] := by
  cases es <;> simp [preorderAll]

/-- However far the walk has gone, it has taken the first elements in order, and the others are
those on the stack with all below them. -/
theorem walk_spec (steps : Nat) (stack : List Element) :
    (walk steps stack).1 = (preorderAll stack.reverse).take steps ∧
      preorderAll (walk steps stack).2.reverse = (preorderAll stack.reverse).drop steps := by
  -- A step puts other elements on the stack, so the stack varies.
  induction steps generalizing stack with
  | zero => exact ⟨rfl, rfl⟩
  | succ steps ih =>
    rcases List.eq_nil_or_concat' stack with rfl | ⟨stack, e, rfl⟩
    · exact ⟨rfl, rfl⟩
    · obtain ⟨htaken, hleft⟩ := ih (stack ++ e.children.reverse)
      have hnext : preorderAll (stack ++ [e]).reverse =
          e :: preorderAll (stack ++ e.children.reverse).reverse := by
        simp [preorderAll, preorderAll_append, preorder_eq]
      rw [walk, takeLast?_concat, hnext]
      exact ⟨congrArg (e :: ·) htaken, hleft⟩

/-- The walk ends after as many steps as there are elements. -/
theorem walk_left_eq_nil (steps : Nat) (stack : List Element) :
    (walk steps stack).2 = [] ↔ (preorderAll stack.reverse).length ≤ steps := by
  rw [← List.reverse_eq_nil_iff, ← preorderAll_eq_nil, (walk_spec steps stack).2,
    List.drop_eq_nil_iff]

/-! ## Places in order -/

mutual

/-- The places of all elements below an element, in document order. -/
def places : Element → List (List Nat)
  | ⟨_, _, children⟩ => placesFrom 0 children

/-- The places of some children and of all elements below them, where the first child stands at the
given position. -/
def placesFrom : Nat → List Element → List (List Nat)
  | _, [] => []
  | i, e :: rest => [i] :: (e.places.map (i :: ·) ++ placesFrom (i + 1) rest)

end

mutual

/-- The places below an element are those where there is an element. -/
theorem mem_places : ∀ (e : Element) (place : List Nat),
    place ∈ e.places ↔ place ≠ [] ∧ (e.at? place).isSome
  | ⟨name, attributes, children⟩, place => by
    rw [places, mem_placesFrom]
    constructor
    · rintro ⟨k, c, rest, hc, rfl, hrest⟩
      rw [Nat.zero_add, at?_cons, hc]
      exact ⟨List.cons_ne_nil _ _, hrest⟩
    · rintro ⟨hne, hplace⟩
      obtain ⟨k, rest, rfl⟩ := List.exists_cons_of_ne_nil hne
      obtain ⟨x, hx⟩ := Option.isSome_iff_exists.mp hplace
      obtain ⟨c, hc, hrest⟩ := Option.bind_eq_some_iff.mp hx
      exact ⟨k, c, rest, hc, by rw [Nat.zero_add], Option.isSome_of_eq_some hrest⟩

theorem mem_placesFrom : ∀ (i : Nat) (es : List Element) (place : List Nat),
    place ∈ placesFrom i es ↔
      ∃ k c rest, es[k]? = some c ∧ place = (i + k) :: rest ∧ (c.at? rest).isSome
  | i, [], place => by simp [placesFrom]
  | i, e :: es, place => by
    rw [placesFrom, List.mem_cons, List.mem_append, mem_placesFrom (i + 1) es]
    -- A place is that of the first child, or below it, or in the other children.
    constructor
    · rintro (rfl | hbelow | ⟨k, c, rest, hc, rfl, hrest⟩)
      · exact ⟨0, e, [], rfl, rfl, rfl⟩
      · obtain ⟨rest, hrest, rfl⟩ := List.mem_map.mp hbelow
        exact ⟨0, e, rest, rfl, rfl, ((mem_places e rest).mp hrest).2⟩
      · exact ⟨k + 1, c, rest, hc, by rw [Nat.add_right_comm]; rfl, hrest⟩
    · rintro ⟨k, c, rest, hc, rfl, hrest⟩
      cases k with
      | zero =>
        obtain rfl := Option.some.inj hc
        cases rest with
        | nil => exact .inl rfl
        | cons j rest =>
          have hmem : (j :: rest) ∈ e.places :=
            (mem_places e (j :: rest)).mpr ⟨List.cons_ne_nil _ _, hrest⟩
          exact .inr (.inl (List.mem_map.mpr ⟨_, hmem, rfl⟩))
      | succ k =>
        exact .inr (.inr ⟨k, c, rest, hc, by rw [Nat.add_right_comm]; rfl, hrest⟩)

end

mutual

/-- Places ascend: an element comes before those below it, and these before its next sibling. -/
theorem pairwise_places : ∀ e : Element, e.places.Pairwise (· < ·)
  | ⟨name, attributes, children⟩ => by
    rw [places]
    exact pairwise_placesFrom 0 children

theorem pairwise_placesFrom : ∀ (i : Nat) (es : List Element),
    (placesFrom i es).Pairwise (· < ·)
  | _, [] => .nil
  | i, e :: es => by
    have hlater : ∀ place ∈ placesFrom (i + 1) es, ∀ rest : List Nat, i :: rest < place := by
      intro place hplace rest
      obtain ⟨k, c, further, -, rfl, -⟩ := (mem_placesFrom (i + 1) es place).mp hplace
      exact List.cons_lt_cons_iff.mpr (.inl (by omega))
    have hbelow : (e.places.map (i :: ·)).Pairwise (· < ·) :=
      List.pairwise_map.mpr ((pairwise_places e).imp fun h => List.cons_lt_cons_self.mpr h)
    rw [placesFrom, List.pairwise_cons, List.pairwise_append]
    refine ⟨?_, hbelow, pairwise_placesFrom (i + 1) es, ?_⟩
    · intro place hplace
      rcases List.mem_append.mp hplace with hmem | hmem
      · obtain ⟨rest, hrest, rfl⟩ := List.mem_map.mp hmem
        obtain ⟨j, further, rfl⟩ := List.exists_cons_of_ne_nil ((mem_places e rest).mp hrest).1
        exact List.cons_lt_cons_self.mpr (List.nil_lt_cons _ _)
      · exact hlater place hmem []
    · intro place hplace later hmem
      obtain ⟨rest, -, rfl⟩ := List.mem_map.mp hplace
      exact hlater later hmem rest

end

mutual

/-- At these places stand the elements below the element, in this order. -/
theorem map_at?_places : ∀ e : Element, e.places.map e.at? = e.preorder.map some
  | ⟨name, attributes, children⟩ => by
    rw [places, preorder]
    -- Positions are looked up among all children, also where some of them are done with.
    exact map_at?_placesFrom ⟨name, attributes, children⟩ [] children rfl

theorem map_at?_placesFrom : ∀ (e : Element) (front es : List Element), e.children = front ++ es →
    (placesFrom front.length es).map e.at? = (preorderAll es).map some
  | _, _, [], _ => rfl
  | e, front, c :: es, h => by
    have hc : e.children[front.length]? = some c := by simp [h]
    have hbelow : (fun rest => e.at? (front.length :: rest)) = c.at? := by
      funext rest
      rw [at?_cons, hc]
      rfl
    have hothers := map_at?_placesFrom e (front ++ [c]) es (by simp [h])
    rw [List.length_append, List.length_singleton] at hothers
    rw [placesFrom, preorderAll, List.map_cons, List.map_cons, List.map_append, List.map_append,
      List.map_map, hothers, ← map_at?_places c, at?_cons, hc, ← hbelow]
    rfl

end

end Element

/-! ## Tags in order -/

/-- A tag as it is written. -/
def Tag.text : Tag → List Char
  | .start name attributes => '<' :: name.toList ++ attributes.write ['>']
  | .empty name attributes => '<' :: name.toList ++ attributes.write ['/', '>']
  | .stop name => '<' :: '/' :: name.toList ++ ['>']

/-- The name of the element that starts with a tag, be it a start tag or an empty one. -/
def Tag.started? : Tag → Option String
  | .start name _ => some name
  | .empty name _ => some name
  | .stop _ => none

/-- What is written after attributes stands after them. -/
theorem Attributes.write_append (attributes : Attributes) (text rest : List Char) :
    attributes.write (text ++ rest) = attributes.write text ++ rest := by
  induction attributes with
  | nil => rfl
  | cons a attributes ih => rw [write_cons, write_cons, ih]; simp

mutual

/-- An element is written as its tags, one after another. -/
theorem write_eq_tags : ∀ (e : Element) (rest : List Char),
    e.write rest = e.tags.flatMap Tag.text ++ rest
  | ⟨name, attributes, []⟩, rest => by
    have htag := attributes.write_append ['/', '>'] rest
    simp [Element.write, Element.tags, Tag.text, ← htag]
  | ⟨name, attributes, child :: children⟩, rest => by
    -- What follows the start tag: the first child, the others, and the end tag.
    have hafter :
        child.write (Element.writeAll children ('<' :: '/' :: name.toList ++ '>' :: rest)) =
          (child.tags ++ (Element.allTags children ++ [Tag.stop name])).flatMap Tag.text ++
            rest := by
      rw [write_eq_tags child, writeAll_eq_tags children]
      simp [Tag.text]
    rw [Element.write, hafter, Element.tags, List.flatMap_cons, Tag.text, List.append_assoc,
      List.append_assoc, ← attributes.write_append]
    rfl

/-- Elements are written as their tags, one after another. -/
theorem writeAll_eq_tags : ∀ (es : List Element) (rest : List Char),
    Element.writeAll es rest = (Element.allTags es).flatMap Tag.text ++ rest
  | [], _ => rfl
  | e :: es, rest => by
    rw [Element.writeAll, writeAll_eq_tags es, write_eq_tags e, Element.allTags,
      List.flatMap_append, List.append_assoc]

end

mutual

/-- One tag starts each element, in document order. -/
theorem filterMap_started?_tags : ∀ e : Element,
    e.tags.filterMap Tag.started? = (e :: e.preorder).map (·.name)
  | ⟨name, attributes, []⟩ => rfl
  | ⟨name, attributes, child :: children⟩ => by
    have hchild := filterMap_started?_tags child
    have hothers := filterMap_started?_allTags children
    rw [List.map_cons] at hchild
    simp [Element.tags, Tag.started?, Element.preorder, Element.preorderAll, hchild, hothers]

theorem filterMap_started?_allTags : ∀ es : List Element,
    (Element.allTags es).filterMap Tag.started? = (Element.preorderAll es).map (·.name)
  | [] => rfl
  | e :: es => by
    rw [Element.allTags, List.filterMap_append, filterMap_started?_tags e,
      filterMap_started?_allTags es, Element.preorderAll]
    simp

end

mutual

/-- Changing values moves no element. -/
theorem Element.preorder_mapValues (f : String → String) : ∀ e : Element,
    (e.mapValues f).preorder = e.preorder.map (·.mapValues f)
  | ⟨name, attributes, children⟩ => by
    rw [Element.mapValues, Element.preorder, Element.preorder, preorderAll_mapAllValues f children]

theorem Element.preorderAll_mapAllValues (f : String → String) : ∀ es : List Element,
    Element.preorderAll (Element.mapAllValues f es) =
      (Element.preorderAll es).map (·.mapValues f)
  | [] => rfl
  | e :: es => by
    simp [Element.mapAllValues, Element.preorderAll, preorder_mapValues f e,
      preorderAll_mapAllValues f es]

end

@[simp] theorem Element.name_mapValues (f : String → String) (e : Element) :
    (e.mapValues f).name = e.name := by
  cases e; rfl

/-- The tags that the text of a document is cut into, if nothing else stands in it. -/
def Document.tags? (text : String) : Option (List Tag) := do
  let rest ← afterDeclaration text.toList
  let (tags, rest) := scanAll scanTag (afterSpaces rest)
  if rest.isEmpty then some tags else none

theorem Document.tags?_text {d : Document} (h : d.root.Everywhere Element.WellNamed) :
    tags? d.text = some (d.root.mapValues xmlText).tags := by
  rw [tags?, toList_text, afterDeclaration_append]
  simp only [Option.bind_eq_bind, Option.bind_some, scanAll_afterSpaces_write h]
  rfl

/-! ## Result -/

/-- What the walk through the elements below an element does. -/
structure WalksInOrder (e : Element) : Prop where
  /-- It lists the elements that recursion lists: each child with all below it, from the first child
  to the last. -/
  preorder : e.descendants = e.preorder
  below : e.preorder = e.children.flatMap fun c => c :: c.preorder
  /-- It begins with the children on the stack, the last of them lowest. After any number of steps
  it has taken the front of the list. -/
  taken : ∀ steps, (Element.walk steps e.children.reverse).1 = e.preorder.take steps
  /-- It ends when it has taken the whole list, and not before. -/
  ends : ∀ steps, (Element.walk steps e.children.reverse).2 = [] ↔ e.preorder.length ≤ steps
  /-- The list goes through the places in the tree in ascending order, and leaves out only that of
  the element itself. So it holds every other element of the tree once. -/
  ascending : e.places.Pairwise (· < ·)
  complete : ∀ place, place ∈ e.places ↔ place ≠ [] ∧ (e.at? place).isSome
  placed : e.places.map e.at? = e.descendants.map some
  /-- A search by name keeps the order of the list. -/
  found : ∀ name, e.findAll name = e.preorder.filter (·.name == name)
  /-- The text of the element is nothing but tags, and those that start an element name the element
  itself first and then the elements of the list. -/
  text : e.write [] = e.tags.flatMap Tag.text
  names : e.tags.filterMap Tag.started? = e.name :: e.descendants.map (·.name)

theorem walksInOrder (e : Element) : WalksInOrder e where
  preorder := e.descendants_eq_preorder
  below := by rw [e.preorder_eq, Element.preorderAll_eq_flatMap]
  taken := by
    intro steps
    rw [(Element.walk_spec steps _).1, List.reverse_reverse, e.preorder_eq]
  ends := by
    intro steps
    rw [Element.walk_left_eq_nil, List.reverse_reverse, e.preorder_eq]
  ascending := e.pairwise_places
  complete := e.mem_places
  placed := by rw [e.map_at?_places, e.descendants_eq_preorder]
  found := by
    intro name
    rw [Element.findAll, e.descendants_eq_preorder]
  text := by rw [write_eq_tags, List.append_nil]
  names := by rw [filterMap_started?_tags, e.descendants_eq_preorder, List.map_cons]

/-- The walk with a stack lists all elements below an element in document order, each of them once;
and where names are names, this is the order in which a reader of the text finds the names. -/
theorem descendants_documentOrder :
    (∀ e : Element, WalksInOrder e) ∧
    ∀ d : Document, d.root.Everywhere Element.WellNamed →
      (Document.tags? d.text).map (·.filterMap Tag.started?) =
        some (d.root.name :: d.root.descendants.map (·.name)) := by
  refine ⟨walksInOrder, ?_⟩
  intro d h
  have hnames : (fun x : Element => (x.mapValues xmlText).name) = fun x => x.name :=
    funext fun x => x.name_mapValues xmlText
  rw [Document.tags?_text h, Option.map_some, filterMap_started?_tags, List.map_cons,
    Element.preorder_mapValues, List.map_map, d.root.descendants_eq_preorder,
    Element.name_mapValues]
  exact congrArg (fun f => some (d.root.name :: d.root.preorder.map f)) hnames

/-- A value that looks like a tag is none. -/
theorem descendants_documentOrder_lookalike :
    (holding "\"/><a></a>").root.Everywhere Element.WellNamed ∧
      (Document.tags? (holding "\"/><a></a>").text).map (·.filterMap Tag.started?) =
        some ["uml:Model", "uml:guard", "uml:specification", "uml:lifeline"] := by
  have hnamed : (holding "\"/><a></a>").root.Everywhere Element.WellNamed := by decide +kernel
  refine ⟨hnamed, ?_⟩
  rw [descendants_documentOrder.2 _ hnamed, Element.descendants_eq_preorder]
  rfl

end SequenceXmi.Xml
