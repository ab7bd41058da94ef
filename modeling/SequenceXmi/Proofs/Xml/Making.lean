import Mathlib.Data.List.Induction
import SequenceXmi.Proofs.Xml.Trees

/-! # Making elements

An element is made from a name by edits: an attribute is set, or a child is added. A child is made
by edits of its own, some before it is added, and some after, through the handle that adding it
gives. So the edits of an element form a tree themselves, and every element that can be made is made
by some edits (`Element.made`).

What an element holds in the end is read off its edits: attributes keep the order in which they were
set first and the value that was set last, and children stand in the order in which they were added
(`made_eq`). An attribute that is set through a chain of handles changes nothing but the element
at the end of the chain (`changedOnlyAt_through`).

Main result: `made_keepsOrder`. -/

namespace SequenceXmi.Xml

/-! ## Edits -/

/-- A change to an element. -/
inductive Edit where
  /-- An attribute is set. -/
  | set (name value : String)
  /-- A child is added, with edits made before, and others through the handle on it. -/
  | push (name : String) (before after : List Edit)

namespace Edit

mutual

/-- Makes an edit. -/
def apply : Edit → Element → Element
  | .set name value, e => e.withAttribute name value
  | .push name before after, e =>
    (e.withChild (applyAll before (.ofName name))).modifyLastChild fun c => applyAll after c

/-- Makes edits one after another. -/
def applyAll : List Edit → Element → Element
  | [], e => e
  | x :: edits, e => applyAll edits (x.apply e)

end

/-- The attribute that is set, with its value. -/
def set? : Edit → Option (String × String)
  | .set name value => some (name, value)
  | .push .. => none

/-- The name of the child that is added, with all edits made to it. -/
def pushed? : Edit → Option (String × List Edit)
  | .set .. => none
  | .push name before after => some (name, before ++ after)

end Edit

/-- The element of a name after some edits. -/
def Element.made (name : String) (edits : List Edit) : Element :=
  Edit.applyAll edits (.ofName name)

/-- The attributes that are set, in order. -/
def setsOf (edits : List Edit) : List (String × String) := edits.filterMap Edit.set?

/-- The names of the attributes that are set, in order. -/
def setNames (edits : List Edit) : List String := (setsOf edits).map (·.1)

/-- The children that are added, in order. -/
def pushesOf (edits : List Edit) : List (String × List Edit) := edits.filterMap Edit.pushed?

/-- The value that an attribute is set to last. -/
def lastSet? (edits : List Edit) (name : String) : Option String :=
  ((setsOf edits).reverse.find? (·.1 == name)).map (·.2)

/-! ### One edit after another -/

theorem Edit.applyAll_append (first second : List Edit) (e : Element) :
    applyAll (first ++ second) e = applyAll second (applyAll first e) := by
  induction first generalizing e with
  | nil => rfl
  | cons x first ih => exact ih (x.apply e)

/-- A change to the child that was added last is as good as a change before it is added. -/
theorem Element.modifyLastChild_withChild (e c : Element) (change : Element → Element) :
    (e.withChild c).modifyLastChild change = e.withChild (change c) := by
  have hlast : e.children.length < (e.children ++ [c]).length := by simp
  have hmodify :
      (e.children ++ [c]).modify e.children.length change = e.children ++ [change c] := by
    rw [List.modify_eq_take_cons_drop hlast]
    simp
  simp [modifyLastChild, withChild, withChildren, hmodify]

/-- It makes no difference when a child gets its edits. -/
theorem Edit.apply_push (name : String) (before after : List Edit) (e : Element) :
    (push name before after).apply e = e.withChild (Element.made name (before ++ after)) := by
  rw [apply, Element.modifyLastChild_withChild, Element.made, applyAll_append]

/-! ## What an element holds -/

/-- Attributes set one after another. -/
def Attributes.putAll (sets : List (String × String)) (attributes : Attributes) : Attributes :=
  sets.foldl (fun as s => as.put s.1 s.2) attributes

/-- Edits set attributes and add children, and neither has to do with the other. -/
theorem Edit.applyAll_eq (edits : List Edit) (e : Element) :
    applyAll edits e =
      ⟨e.name, e.attributes.putAll (setsOf edits),
        e.children ++ (pushesOf edits).map fun p => Element.made p.1 p.2⟩ := by
  induction edits generalizing e with
  | nil =>
    obtain ⟨name, attributes, children⟩ := e
    show Element.mk name attributes children = ⟨name, attributes, children ++ []⟩
    rw [List.append_nil]
  | cons x edits ih =>
    rw [applyAll, ih]
    cases x with
    | set name value => rfl
    | push name before after =>
      rw [apply_push]
      simp [Element.withChild, Element.withChildren, setsOf, pushesOf, List.filterMap_cons, set?,
        pushed?]

theorem Element.made_eq (name : String) (edits : List Edit) :
    made name edits = ⟨name, Attributes.putAll (setsOf edits) [],
      (pushesOf edits).map fun p => made p.1 p.2⟩ :=
  Edit.applyAll_eq edits (.ofName name)

/-- A second value takes the place of the first, and a child may be edited when it is added. -/
example : Element.made "x" [.set "z" "1", .push "a" [.set "k" "1"] [.set "k" "2"], .set "b" "",
      .set "z" "3"] =
    ⟨"x", [("z", "3"), ("b", "")], [⟨"a", [("k", "2")], []⟩]⟩ := by decide

/-! ### Attributes -/

theorem eraseDups_concat (names : List String) (name : String) :
    (names ++ [name]).eraseDups =
      if name ∈ names then names.eraseDups else names.eraseDups ++ [name] := by
  rw [List.eraseDups_append]
  by_cases h : name ∈ names <;> simp [List.removeAll, h, List.eraseDups_cons]

theorem Attributes.putAll_concat (sets : List (String × String)) (s : String × String)
    (attributes : Attributes) :
    attributes.putAll (sets ++ [s]) = (attributes.putAll sets).put s.1 s.2 :=
  List.foldl_concat ..

/-- Names stand in the order in which they were set first. -/
theorem Attributes.map_fst_putAll (sets : List (String × String)) :
    (Attributes.putAll sets []).map (·.1) = (sets.map (·.1)).eraseDups := by
  -- Whether a name is there already is a question to the sets before, so the last one is split off.
  induction sets using List.reverseRecOn with
  | nil => rfl
  | append_singleton sets s ih =>
    rw [putAll_concat, map_fst_put, ih, List.map_append, List.map_singleton, eraseDups_concat]
    simp only [List.mem_eraseDups]

/-- The value of an attribute is the one set last. -/
theorem Attributes.value?_putAll (sets : List (String × String)) (name : String) :
    (Attributes.putAll sets []).value? name = (sets.reverse.find? (·.1 == name)).map (·.2) := by
  induction sets using List.reverseRecOn with
  | nil => rfl
  | append_singleton sets s ih =>
    rw [putAll_concat, List.reverse_append, List.reverse_singleton, List.singleton_append]
    by_cases h : s.1 = name
    · subst h
      simp
    · rw [value?_put_ne _ _ (Ne.symm h), ih, List.find?_cons_of_neg (by simpa using h)]

theorem Element.attribute?_made (name : String) (edits : List Edit) (n : String) :
    (made name edits).attribute? n = lastSet? edits n := by
  rw [made_eq, attribute?, Attributes.value?_putAll]
  rfl

theorem lastSet?_eq_none {edits : List Edit} {name : String} :
    lastSet? edits name = none ↔ name ∉ setNames edits := by
  rw [lastSet?, Option.map_eq_none_iff, List.find?_eq_none]
  constructor
  · intro h hmem
    obtain ⟨s, hs, rfl⟩ := List.mem_map.mp hmem
    exact h s (List.mem_reverse.mpr hs) (beq_self_eq_true s.1)
  · intro h s hs hname
    exact h (List.mem_map.mpr ⟨s, List.mem_reverse.mp hs, beq_iff_eq.mp hname⟩)

/-! ### Names are distinct everywhere -/

/-- No attribute is there twice. -/
def Element.DistinctNames (e : Element) : Prop := (e.attributes.map (·.1)).Nodup

theorem Element.everywhere_distinctNames_ofName (name : String) :
    (ofName name).Everywhere DistinctNames :=
  everywhere_iff.mpr ⟨List.nodup_nil, fun _ hc => absurd hc List.not_mem_nil⟩

mutual

/-- What one edit preserves. -/
theorem Edit.everywhere_apply : ∀ (x : Edit) (e : Element),
    e.Everywhere Element.DistinctNames → (x.apply e).Everywhere Element.DistinctNames
  | .set name value, e, h => by
    obtain ⟨hdistinct, hchildren⟩ := Element.everywhere_iff.mp h
    exact Element.everywhere_iff.mpr ⟨Attributes.nodup_put hdistinct name value, hchildren⟩
  | .push name before after, e, h => by
    obtain ⟨hdistinct, hchildren⟩ := Element.everywhere_iff.mp h
    have hbefore := everywhere_applyAll before _ (Element.everywhere_distinctNames_ofName name)
    have hafter := everywhere_applyAll after _ hbefore
    rw [apply, Element.modifyLastChild_withChild]
    refine Element.everywhere_iff.mpr ⟨hdistinct, ?_⟩
    intro c hc
    rcases List.mem_append.mp hc with hold | hnew
    · exact hchildren c hold
    · rw [List.mem_singleton.mp hnew]
      exact hafter

/-- What all edits preserve. -/
theorem Edit.everywhere_applyAll : ∀ (edits : List Edit) (e : Element),
    e.Everywhere Element.DistinctNames → (applyAll edits e).Everywhere Element.DistinctNames
  | [], _, h => h
  | x :: edits, e, h => everywhere_applyAll edits _ (everywhere_apply x e h)

end

/-! ## Chains of handles -/

/-- A handle on a child: the edits made to the element above it before the child was added, the
name of the child, and the edits made to the child before. -/
structure Handle where
  earlier : List Edit
  name : String
  before : List Edit

/-- The edits of the outermost element, if the given ones are made through a chain of handles,
each of them on a child of the element that the one before it leads to. -/
def through : List Handle → List Edit → List Edit
  | [], edits => edits
  | handle :: chain, edits =>
    handle.earlier ++ [.push handle.name handle.before (through chain edits)]

/-- The place of the last child of the last child, and so on, so many levels down. -/
def Element.lastPlace : Nat → Element → List Nat
  | 0, _ => []
  | depth + 1, e =>
    match e.children.getLast? with
    | none => []
    | some c => (e.children.length - 1) :: c.lastPlace depth

/-- What an element is, apart from the elements below it. -/
def Element.own (e : Element) : String × Attributes × Nat :=
  (e.name, e.attributes, e.children.length)

/-- Two trees that differ by a change to the element at one place. -/
structure ChangedOnlyAt (place : List Nat) (change : Element → Element) (e e' : Element) :
    Prop where
  changed : ∃ c, e.at? place = some c ∧ e'.at? place = some (change c)
  /-- Every other element keeps its name, its attributes and the number of its children. -/
  kept : ∀ q, q ≠ place → (e'.at? q).map Element.own = (e.at? q).map Element.own
  /-- Where the way to the place does not lead through, everything stays as it is. -/
  apart : ∀ q, ¬ q <+: place → e'.at? q = e.at? q

/-! ### Places under a new child -/

theorem Element.lastPlace_withChild (e c : Element) (depth : Nat) :
    (e.withChild c).lastPlace (depth + 1) = e.children.length :: c.lastPlace depth := by
  simp [lastPlace, withChild, withChildren]

theorem Element.at?_withChild_last (e c : Element) (q : List Nat) :
    (e.withChild c).at? (e.children.length :: q) = c.at? q := by
  simp [at?_cons, withChild, withChildren]

theorem Element.at?_withChild_ne (e c d : Element) {i : Nat} (h : i ≠ e.children.length)
    (q : List Nat) : (e.withChild c).at? (i :: q) = (e.withChild d).at? (i :: q) := by
  have hchild : (e.withChild c).children[i]? = (e.withChild d).children[i]? := by
    show (e.children ++ [c])[i]? = (e.children ++ [d])[i]?
    rw [List.getElem?_append, List.getElem?_append]
    split
    · rfl
    · rw [List.getElem?_eq_none (by simp; omega), List.getElem?_eq_none (by simp; omega)]
  rw [at?_cons, at?_cons, hchild]

namespace ChangedOnlyAt

/-- An attribute that is set at the top changes nothing below. -/
theorem withAttribute (e : Element) (name value : String) :
    ChangedOnlyAt [] (·.withAttribute name value) e (e.withAttribute name value) where
  changed := ⟨e, rfl, rfl⟩
  kept := by
    intro q hq
    obtain ⟨i, rest, rfl⟩ := List.exists_cons_of_ne_nil hq
    rfl
  apart := by
    intro q hq
    cases q with
    | nil => exact absurd (List.prefix_refl []) hq
    | cons i rest => rfl

/-- What happens inside a child that was added last concerns this child only. -/
theorem withChild {place : List Nat} {change : Element → Element} {c c' : Element}
    (h : ChangedOnlyAt place change c c') (e : Element) :
    ChangedOnlyAt (e.children.length :: place) change (e.withChild c) (e.withChild c') where
  changed := by
    rw [Element.at?_withChild_last, Element.at?_withChild_last]
    exact h.changed
  kept := by
    intro q hq
    cases q with
    | nil => simp [Element.own, Element.withChild, Element.withChildren]
    | cons i rest =>
      -- Outside the new child both trees are the same.
      by_cases hi : i = e.children.length
      · subst hi
        rw [Element.at?_withChild_last, Element.at?_withChild_last]
        exact h.kept rest fun heq => hq (by rw [heq])
      · rw [e.at?_withChild_ne c' c hi]
  apart := by
    intro q hq
    cases q with
    | nil => exact absurd List.nil_prefix hq
    | cons i rest =>
      by_cases hi : i = e.children.length
      · subst hi
        rw [Element.at?_withChild_last, Element.at?_withChild_last]
        exact h.apart rest fun hprefix => hq (List.cons_prefix_cons.mpr ⟨rfl, hprefix⟩)
      · exact e.at?_withChild_ne c' c hi rest

end ChangedOnlyAt

/-- A chain of handles begins with the child that is added last. -/
theorem applyAll_through_cons (handle : Handle) (chain : List Handle) (edits : List Edit)
    (e : Element) :
    Edit.applyAll (through (handle :: chain) edits) e =
      (Edit.applyAll handle.earlier e).withChild
        (Edit.applyAll (through chain edits) (.made handle.name handle.before)) := by
  rw [through, Edit.applyAll_append, Edit.applyAll, Edit.applyAll, Edit.apply_push, Element.made,
    Edit.applyAll_append]
  rfl

/-- An attribute set through a chain of handles changes the element at the end of the chain. -/
theorem changedOnlyAt_through (chain : List Handle) (edits : List Edit) (name value : String)
    (e : Element) :
    ChangedOnlyAt ((Edit.applyAll (through chain edits) e).lastPlace chain.length)
      (·.withAttribute name value) (Edit.applyAll (through chain edits) e)
      (Edit.applyAll (through chain (edits ++ [.set name value])) e) := by
  -- The rest of a chain starts from the child that its first handle is on, so `e` varies.
  induction chain generalizing e with
  | nil =>
    show ChangedOnlyAt [] _ (Edit.applyAll edits e) (Edit.applyAll (edits ++ [.set name value]) e)
    rw [Edit.applyAll_append]
    exact .withAttribute _ name value
  | cons handle chain ih =>
    rw [applyAll_through_cons, applyAll_through_cons, List.length_cons,
      Element.lastPlace_withChild]
    exact (ih (.made handle.name handle.before)).withChild (Edit.applyAll handle.earlier e)

/-! ## Result -/

/-- What an element holds that is made by some edits. -/
structure HoldsInOrder (name : String) (edits : List Edit) : Prop where
  named : (Element.made name edits).name = name
  /-- In the whole tree no element has an attribute twice. -/
  distinct : (Element.made name edits).Everywhere Element.DistinctNames
  /-- The value of an attribute is the one set last; there is none if it was never set. -/
  value : ∀ n, (Element.made name edits).attribute? n = lastSet? edits n
  unset : ∀ n, (Element.made name edits).attribute? n = none ↔ n ∉ setNames edits
  /-- The attributes stand in the order in which they were set first. -/
  order : (Element.made name edits).attributes.map (·.1) = (setNames edits).eraseDups
  /-- The children stand in the order in which they were added, with all edits made to them. -/
  children : (Element.made name edits).children =
    (pushesOf edits).map fun p => Element.made p.1 p.2

theorem holdsInOrder (name : String) (edits : List Edit) : HoldsInOrder name edits where
  named := by rw [Element.made_eq]
  distinct := Edit.everywhere_applyAll edits _ (Element.everywhere_distinctNames_ofName name)
  value := Element.attribute?_made name edits
  unset := by
    intro n
    rw [Element.attribute?_made, lastSet?_eq_none]
  order := by
    rw [Element.made_eq, Attributes.map_fst_putAll]
    rfl
  children := by rw [Element.made_eq]

/-- Whatever edits make an element, it keeps its attributes in the order in which they were set
first and its children in the order in which they were added; and an attribute that is set through
handles, however deep, changes one element. -/
theorem made_keepsOrder :
    (∀ (name : String) (edits : List Edit), HoldsInOrder name edits) ∧
    ∀ (name : String) (chain : List Handle) (edits : List Edit) (key value : String),
      ChangedOnlyAt ((Element.made name (through chain edits)).lastPlace chain.length)
        (·.withAttribute key value) (Element.made name (through chain edits))
        (Element.made name (through chain (edits ++ [.set key value]))) :=
  ⟨holdsInOrder, fun name chain edits key value =>
    changedOnlyAt_through chain edits key value (.ofName name)⟩

end SequenceXmi.Xml
