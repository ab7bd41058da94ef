import Mathlib.Data.List.Nodup
import SequenceXmi.Proofs.Xml.Reader

/-! # Trees of elements

What is said of every element of a tree (`Element.Everywhere`), where an element stands in it
(`Element.at?`), what the names of an element have to be (`Element.WellNamed`), and a change to
every attribute value (`Element.mapValues`). -/

namespace SequenceXmi.Xml

/-! ## Properties of whole trees -/

/-- A property of an element and of all below it. -/
def Element.Everywhere (p : Element → Prop) (e : Element) : Prop := ∀ x ∈ e :: e.preorder, p x

instance (p : Element → Prop) [DecidablePred p] (e : Element) : Decidable (e.Everywhere p) :=
  inferInstanceAs (Decidable (∀ x ∈ e :: e.preorder, p x))

theorem Element.mem_preorderAll {x : Element} {es : List Element} :
    x ∈ Element.preorderAll es ↔ ∃ e ∈ es, x ∈ e :: e.preorder := by
  induction es with
  | nil => simp [preorderAll]
  | cons e es ih => simp [preorderAll, ih, or_assoc]

theorem Element.everywhere_iff {p : Element → Prop} {e : Element} :
    e.Everywhere p ↔ p e ∧ ∀ c ∈ e.children, c.Everywhere p := by
  simp only [Everywhere, List.forall_mem_cons, preorder_eq e, mem_preorderAll]
  constructor
  · rintro ⟨he, h⟩
    refine ⟨he, fun c hc => ⟨h c ⟨c, hc, by simp⟩, fun x hx => h x ⟨c, hc, by simp [hx]⟩⟩⟩
  · rintro ⟨he, h⟩
    refine ⟨he, ?_⟩
    rintro x ⟨c, hc, hx⟩
    rcases List.mem_cons.mp hx with rfl | hx
    · exact (h x hc).1
    · exact (h c hc).2 x hx

/-! ## Places -/

/-- The element at a place in a tree. A place is the way down to it: the position of a child, then
that of a child of this child, and so on. -/
def Element.at? (e : Element) : List Nat → Option Element
  | [] => some e
  | i :: place => e.children[i]?.bind (·.at? place)

@[simp] theorem Element.at?_nil (e : Element) : e.at? [] = some e := rfl

theorem Element.at?_cons (e : Element) (i : Nat) (place : List Nat) :
    e.at? (i :: place) = e.children[i]?.bind (·.at? place) := rfl

/-! ## Names -/

/-- The names of an element are names, and no attribute is there twice. -/
structure Element.WellNamed (e : Element) : Prop where
  name : isName e.name.toList
  attributes : ∀ a ∈ e.attributes, isName a.1.toList
  distinct : (e.attributes.map (·.1)).Nodup

instance (e : Element) : Decidable e.WellNamed :=
  decidable_of_iff (isName e.name.toList ∧ (∀ a ∈ e.attributes, isName a.1.toList) ∧
      (e.attributes.map (·.1)).Nodup)
    ⟨fun ⟨h1, h2, h3⟩ => ⟨h1, h2, h3⟩, fun ⟨h1, h2, h3⟩ => ⟨h1, h2, h3⟩⟩

/-- Setting an attribute keeps the names, or puts a new one at the end. -/
theorem Attributes.map_fst_put (attributes : Attributes) (name value : String) :
    (attributes.put name value).map (·.1) =
      if name ∈ attributes.map (·.1) then attributes.map (·.1)
      else attributes.map (·.1) ++ [name] := by
  induction attributes with
  | nil => rfl
  | cons a attributes ih =>
    by_cases ha : a.1 = name
    · simp [put, ha]
    · by_cases hmem : name ∈ attributes.map (·.1)
      · simp only [hmem, if_true] at ih
        simp [put, ha, hmem, ih]
      · simp only [hmem, if_false] at ih
        simp [put, ha, Ne.symm ha, hmem, ih]

/-- Setting attributes never makes two of one name. -/
theorem Attributes.nodup_put {attributes : Attributes} (h : (attributes.map (·.1)).Nodup)
    (name value : String) : ((attributes.put name value).map (·.1)).Nodup := by
  rw [map_fst_put]
  split
  · exact h
  · next hmem =>
    refine List.nodup_append.mpr ⟨h, List.nodup_singleton name, fun a ha b hb hab => hmem ?_⟩
    rwa [← List.mem_singleton.mp hb, ← hab]

/-! ## Changing values -/

/-- The attributes with each value changed. -/
def Attributes.mapValues (f : String → String) (attributes : Attributes) : Attributes :=
  attributes.map fun a => (a.1, f a.2)

mutual

/-- The tree with every attribute value changed. -/
def Element.mapValues (f : String → String) : Element → Element
  | ⟨name, attributes, children⟩ => ⟨name, attributes.mapValues f, mapAllValues f children⟩

/-- Trees with every attribute value changed. -/
def Element.mapAllValues (f : String → String) : List Element → List Element
  | [] => []
  | e :: rest => e.mapValues f :: mapAllValues f rest

end

/-- A value as XML can hold it. -/
def xmlText (value : String) : String := String.ofList (xmlChars value.toList)

/-- All values of an element can be held by XML as they are. -/
def Element.HoldsXmlChars (e : Element) : Prop := ∀ a ∈ e.attributes, a.2.toList.all isXmlChar

instance (e : Element) : Decidable e.HoldsXmlChars :=
  inferInstanceAs (Decidable (∀ a ∈ e.attributes, a.2.toList.all isXmlChar))


/-- A value that XML can hold stays as it is. -/
theorem xmlText_of_all {value : String} (h : value.toList.all isXmlChar) :
    xmlText value = value := by
  rw [xmlText, xmlChars, if_pos h, String.ofList_toList]

theorem Attributes.mapValues_xmlText {attributes : Attributes}
    (h : ∀ a ∈ attributes, a.2.toList.all isXmlChar) :
    attributes.mapValues xmlText = attributes := by
  have hall : ∀ a ∈ attributes, (a.1, xmlText a.2) = a := fun a ha => by
    rw [xmlText_of_all (h a ha)]
  rw [mapValues, List.map_congr_left hall, List.map_id']

mutual

theorem Element.mapValues_xmlText : ∀ e : Element, e.Everywhere Element.HoldsXmlChars →
    e.mapValues xmlText = e
  | ⟨name, attributes, children⟩, h => by
    obtain ⟨hholds, hchildren⟩ := Element.everywhere_iff.mp h
    rw [Element.mapValues, Attributes.mapValues_xmlText hholds,
      Element.mapAllValues_xmlText children hchildren]

theorem Element.mapAllValues_xmlText : ∀ es : List Element,
    (∀ e ∈ es, e.Everywhere Element.HoldsXmlChars) → Element.mapAllValues xmlText es = es
  | [], _ => rfl
  | e :: es, h => by
    rw [Element.mapAllValues, Element.mapValues_xmlText e (h e List.mem_cons_self),
      Element.mapAllValues_xmlText es fun x hx => h x (List.mem_cons_of_mem e hx)]

end

/-- The document with every attribute value changed. -/
def Document.mapValues (f : String → String) (d : Document) : Document := ⟨d.root.mapValues f⟩

/-- A document whose values XML can hold stays as it is. -/
theorem Document.mapValues_xmlText {d : Document} (h : d.root.Everywhere Element.HoldsXmlChars) :
    d.mapValues xmlText = d := by
  rw [mapValues, Element.mapValues_xmlText d.root h]

end SequenceXmi.Xml
