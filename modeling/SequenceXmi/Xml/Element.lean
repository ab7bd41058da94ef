/-! # Elements of an XML document

An element has a name, attributes in the order in which they were first set, and child elements.
There is no text between elements.

The elements below one element are listed in document order twice: by recursion (`preorder`), and
by a walk with a stack of elements still to be visited (`descendants`), which is what runs. -/

namespace SequenceXmi.Xml

/-! ## Attributes -/

/-- Attribute names with their values. -/
abbrev Attributes := List (String × String)

/-- Sets an attribute: in place if its name is there already, else at the end. -/
def Attributes.put : Attributes → String → String → Attributes
  | [], name, value => [(name, value)]
  | (n, v) :: rest, name, value =>
    if n = name then (n, value) :: rest else (n, v) :: put rest name value

/-- The value of the first attribute of that name. -/
def Attributes.value? (attributes : Attributes) (name : String) : Option String :=
  (attributes.find? (·.1 == name)).map (·.2)

@[simp] theorem Attributes.value?_put_self (attributes : Attributes) (name value : String) :
    (attributes.put name value).value? name = some value := by
  induction attributes with
  | nil => simp [put, value?]
  | cons a rest ih =>
    by_cases h : a.1 = name
    · simp [put, value?, h]
    · simpa [put, value?, h] using ih

theorem Attributes.value?_put_ne (attributes : Attributes) {name other : String} (value : String)
    (h : other ≠ name) : (attributes.put name value).value? other = attributes.value? other := by
  induction attributes with
  | nil => simp [put, value?, Ne.symm h]
  | cons a rest ih =>
    by_cases ha : a.1 = name
    · simp [put, value?, ha, Ne.symm h]
    · by_cases ho : a.1 = other
      · subst ho; simp [put, value?, h]
      · simpa [put, value?, ha, ho] using ih

/-! ## Elements -/

/-- An element with everything below it. -/
structure Element where
  name : String
  attributes : Attributes
  children : List Element
  deriving Repr, Inhabited

namespace Element

/-! ### Equality -/

mutual

/-- Elements are compared in all their parts. -/
def decEq : (a b : Element) → Decidable (a = b)
  | ⟨n, as, cs⟩, ⟨m, bs, ds⟩ =>
    if hn : n = m then
      if ha : as = bs then
        match decEqAll cs ds with
        | isTrue hc => isTrue (by rw [hn, ha, hc])
        | isFalse hc => isFalse fun h => hc (Element.mk.inj h).2.2
      else isFalse fun h => ha (Element.mk.inj h).2.1
    else isFalse fun h => hn (Element.mk.inj h).1

/-- Lists of elements are compared element by element. -/
def decEqAll : (as bs : List Element) → Decidable (as = bs)
  | [], [] => isTrue rfl
  | [], _ :: _ => isFalse nofun
  | _ :: _, [] => isFalse nofun
  | a :: as, b :: bs =>
    match decEq a b with
    | isTrue h =>
      match decEqAll as bs with
      | isTrue hs => isTrue (by rw [h, hs])
      | isFalse hs => isFalse fun e => hs (List.cons.inj e).2
    | isFalse h => isFalse fun e => h (List.cons.inj e).1

end

instance : DecidableEq Element := decEq

/-! ### Making elements -/

/-- An element with nothing in it. -/
def ofName (name : String) : Element := ⟨name, [], []⟩

/-- The element with an attribute set. -/
def withAttribute (e : Element) (name value : String) : Element :=
  { e with attributes := e.attributes.put name value }

/-- The element with more children at its end. -/
def withChildren (e : Element) (children : List Element) : Element :=
  { e with children := e.children ++ children }

/-- The element with one more child at its end. -/
def withChild (e : Element) (child : Element) : Element := e.withChildren [child]

/-- The element with a change made to its last child. -/
def modifyLastChild (e : Element) (change : Element → Element) : Element :=
  { e with children := e.children.modify (e.children.length - 1) change }

/-- The value of an attribute. -/
def attribute? (e : Element) (name : String) : Option String := e.attributes.value? name

/-- The value of an attribute is the one set last. -/
@[simp] theorem attribute?_withAttribute_self (e : Element) (name value : String) :
    (e.withAttribute name value).attribute? name = some value :=
  Attributes.value?_put_self ..

theorem attribute?_withAttribute_ne (e : Element) {name other : String} (value : String)
    (h : other ≠ name) : (e.withAttribute name value).attribute? other = e.attribute? other :=
  Attributes.value?_put_ne _ _ h

/-! ### Document order -/

mutual

/-- The elements below an element, each one before those below it. -/
def preorder : Element → List Element
  | ⟨_, _, children⟩ => preorderAll children

/-- Some elements with those below them. -/
def preorderAll : List Element → List Element
  | [] => []
  | e :: rest => e :: (e.preorder ++ preorderAll rest)

end

theorem preorder_eq (e : Element) : e.preorder = preorderAll e.children := by
  cases e; rw [preorder]

theorem preorderAll_append (as bs : List Element) :
    preorderAll (as ++ bs) = preorderAll as ++ preorderAll bs := by
  induction as with
  | nil => rfl
  | cons a as ih => simp [preorderAll, ih]

mutual

/-- The number of elements in the tree, the element itself included. -/
def size : Element → Nat
  | ⟨_, _, children⟩ => sizeAll children + 1

/-- The number of elements in some trees. -/
def sizeAll : List Element → Nat
  | [] => 0
  | e :: rest => e.size + sizeAll rest

end

theorem size_eq (e : Element) : e.size = sizeAll e.children + 1 := by
  cases e; simp [size]

theorem sizeAll_append (as bs : List Element) : sizeAll (as ++ bs) = sizeAll as + sizeAll bs := by
  induction as with
  | nil => simp [sizeAll]
  | cons a as ih => simp [sizeAll, ih, Nat.add_assoc]

/-- Visits the elements on a stack: the top one comes next, and its children take its place. -/
def visit : List Element → List Element
  | [] => []
  | e :: stack => e :: visit (e.children ++ stack)
termination_by stack => sizeAll stack
decreasing_by simp only [sizeAll, sizeAll_append, size_eq]; omega

/-- The elements below an element, in document order. -/
def descendants (e : Element) : List Element := visit e.children

/-- The elements of a name below an element, in document order. -/
def findAll (e : Element) (name : String) : List Element := e.descendants.filter (·.name == name)

end Element

end SequenceXmi.Xml
