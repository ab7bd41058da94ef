import SequenceXmi.Proofs.Text.Scanning
import SequenceXmi.Proofs.Xml.Trees
import SequenceXmi.Proofs.Xml.Values

/-! # Documents, written and read

What is written of a document can be read, and gives the document back with every attribute value
as XML can hold it (`Document.read?_text`). All that is asked of the document is that its names are
names and that no element has an attribute twice.

The proof follows the reader. The text of an element is cut into the tags of the element
(`scanAll_write`), and these tags, put together on any stack of open elements, add the element to
the innermost one (`foldlM_tags`). -/

namespace SequenceXmi.Xml

open Text (Stops stops_cons stops_nil takeWhile_append_of_stops dropWhile_append_of_stops
  afterLiteral afterLiteral_eq_some afterSpaces afterSpaces_of_stops isSpace isSpace_iff scanAll
  scanAll_of_some scanAll_of_none)

/-! ## Attributes -/

theorem isSpace_of_isNameChar {c : Char} (h : isNameChar c) : isSpace c = false := by
  refine Bool.eq_false_iff.mpr fun hspace => ?_
  rcases isSpace_iff.mp hspace with rfl | rfl | rfl | rfl <;> exact absurd h (by decide)

theorem isNameChar_of_isName {name : List Char} (h : isName name) : ∀ c ∈ name, isNameChar c := by
  simp only [isName, Bool.and_eq_true, List.all_eq_true] at h
  exact h.2

theorem scanName_append {name : String} (h : isName name.toList) {rest : List Char}
    (hrest : Stops isNameChar rest) : scanName (name.toList ++ rest) = some (name, rest) := by
  have hall := isNameChar_of_isName h
  simp [scanName, takeWhile_append_of_stops hall hrest, dropWhile_append_of_stops hall hrest, h]

/-- White space in front of a name goes no further than the name. -/
theorem stops_isSpace_name {name : List Char} (h : isName name) (rest : List Char) :
    Stops isSpace (name ++ rest) := by
  cases name with
  | nil => cases h
  | cons c name =>
    exact stops_cons.mpr (isSpace_of_isNameChar (isNameChar_of_isName h c List.mem_cons_self))

/-- An attribute, in quotation marks of either kind. -/
theorem scanAttribute_append {name : String} {text value : List Char} {quote : Char}
    (hname : isName name.toList) (hquote : quote = '"' ∨ quote = '\'') (htext : quote ∉ text)
    (hvalue : expand text = some value) (rest : List Char) :
    scanAttribute (' ' :: name.toList ++ '=' :: quote :: text ++ quote :: rest) =
      some ((name, String.ofList value), rest) := by
  have hspace : isSpace quote = false := by rcases hquote with rfl | rfl <;> rfl
  have hequals : afterEquals ('=' :: quote :: (text ++ quote :: rest)) =
      some (quote :: (text ++ quote :: rest)) := by
    rw [afterEquals, afterSpaces_of_stops (stops_cons.mpr rfl)]
    simp [afterLiteral, afterSpaces_of_stops (stops_cons.mpr hspace)]
  have hscan : scanValue (quote :: (text ++ quote :: rest)) = some (String.ofList value, rest) := by
    simp [scanValue, hquote, cut?_append htext, hvalue]
  have hshape : ' ' :: name.toList ++ '=' :: quote :: text ++ quote :: rest =
      ' ' :: (name.toList ++ '=' :: quote :: (text ++ quote :: rest)) := by simp
  have hspaces := afterSpaces_of_stops
    (stops_isSpace_name hname ('=' :: quote :: (text ++ quote :: rest)))
  have hscanName : scanName (name.toList ++ '=' :: quote :: (text ++ quote :: rest)) =
      some (name, '=' :: quote :: (text ++ quote :: rest)) :=
    scanName_append hname (stops_cons.mpr rfl)
  rw [hshape]
  simp [scanAttribute, show isSpace ' ' = true from rfl, hspaces, hscanName, hequals, hscan]

/-- An attribute comes first, and the others after it. -/
theorem scanAll_attribute_append {name : String} {text value : List Char} {quote : Char}
    (hname : isName name.toList) (hquote : quote = '"' ∨ quote = '\'') (htext : quote ∉ text)
    (hvalue : expand text = some value) (rest : List Char) :
    scanAll scanAttribute (' ' :: name.toList ++ '=' :: quote :: text ++ quote :: rest) =
      ((name, String.ofList value) :: (scanAll scanAttribute rest).1,
        (scanAll scanAttribute rest).2) := by
  apply scanAll_of_some (scanAttribute_append hname hquote htext hvalue rest)
  simp only [List.length_append, List.length_cons]
  omega

/-- Without white space in front there is no attribute. -/
theorem scanAttribute_of_stops {text : List Char} (h : Stops isSpace text) :
    scanAttribute text = none := by
  cases text with
  | nil => rfl
  | cons c text => simp [scanAttribute, stops_cons.mp h]

theorem Attributes.write_cons (a : String × String) (attributes : Attributes) (rest : List Char) :
    Attributes.write (a :: attributes) rest = ' ' :: a.1.toList ++ '=' :: '"' ::
      attributeText a.2.toList ++ '"' :: attributes.write rest := rfl

theorem Attributes.length_le_write (attributes : Attributes) (rest : List Char) :
    rest.length ≤ (attributes.write rest).length := by
  induction attributes with
  | nil => exact Nat.le_refl _
  | cons a attributes ih =>
    rw [write_cons]
    simp only [List.length_append, List.length_cons]
    omega

/-- Attributes are read one after another up to the end of the tag. -/
theorem scanAll_attributes {attributes : Attributes} {rest : List Char}
    (h : ∀ a ∈ attributes, isName a.1.toList) (hrest : Stops isSpace rest) :
    scanAll scanAttribute (attributes.write rest) = (attributes.mapValues xmlText, rest) := by
  induction attributes with
  | nil => exact scanAll_of_none (scanAttribute_of_stops hrest)
  | cons a attributes ih =>
    have hquote := (plain_attributeText a.2.toList).1
    have hall := ih fun b hb => h b (List.mem_cons_of_mem a hb)
    rw [Attributes.write_cons, scanAll_attribute_append (h a List.mem_cons_self) (.inl rfl) hquote
      (expand_attributeText a.2.toList), hall]
    rfl

/-- Attributes end a name. -/
theorem Attributes.stops_write (attributes : Attributes) {rest : List Char}
    (h : Stops isNameChar rest) : Stops isNameChar (attributes.write rest) := by
  cases attributes with
  | nil => exact h
  | cons a attributes => exact stops_cons.mpr rfl

/-! ## Tags -/

theorem mapValues_map_fst (f : String → String) (attributes : Attributes) :
    (attributes.mapValues f).map (·.1) = attributes.map (·.1) := by
  simp [Attributes.mapValues]

/-- A tag that starts with a name is no end tag. -/
theorem scanTag_name {name : List Char} (h : isName name) (rest : List Char) :
    scanTag ('<' :: name ++ rest) = scanStart (name ++ rest) := by
  cases name with
  | nil => cases h
  | cons c name =>
    have hc : c ≠ '/' := by
      rintro rfl
      exact absurd (isNameChar_of_isName h '/' List.mem_cons_self) (by decide)
    simp [scanTag, hc]

section Tags

variable {name : String} {attributes : Attributes} {children : List Element}

/-- What a start tag holds, whichever way it ends. -/
theorem scanStart_append (h : (Element.mk name attributes children).WellNamed) {rest : List Char}
    (hname : Stops isNameChar rest) (hspace : Stops isSpace rest) :
    scanStart (name.toList ++ attributes.write rest) =
      scanStartEnd name (attributes.mapValues xmlText) rest := by
  have hdistinct : ((attributes.mapValues xmlText).map (·.1)).Nodup := by
    rw [mapValues_map_fst]
    exact h.distinct
  rw [scanStart, scanName_append h.name (attributes.stops_write hname)]
  simp only [Option.bind_eq_bind, Option.bind_some, scanAll_attributes h.attributes hspace,
    if_pos hdistinct, afterSpaces_of_stops hspace]

theorem scanTag_start (h : (Element.mk name attributes children).WellNamed) (rest : List Char) :
    scanTag ('<' :: name.toList ++ attributes.write ('>' :: rest)) =
      some (.start name (attributes.mapValues xmlText), rest) := by
  rw [scanTag_name h.name, scanStart_append h (stops_cons.mpr rfl) (stops_cons.mpr rfl)]
  rfl

theorem scanTag_empty (h : (Element.mk name attributes children).WellNamed) (rest : List Char) :
    scanTag ('<' :: name.toList ++ attributes.write ('/' :: '>' :: rest)) =
      some (.empty name (attributes.mapValues xmlText), rest) := by
  rw [scanTag_name h.name, scanStart_append h (stops_cons.mpr rfl) (stops_cons.mpr rfl)]
  rfl

theorem scanTag_stop (h : (Element.mk name attributes children).WellNamed) (rest : List Char) :
    scanTag ('<' :: '/' :: name.toList ++ '>' :: rest) = some (.stop name, rest) := by
  have hscan : scanName (name.toList ++ '>' :: rest) = some (name, '>' :: rest) :=
    scanName_append h.name (stops_cons.mpr rfl)
  have hspaces : afterSpaces ('>' :: rest) = '>' :: rest :=
    afterSpaces_of_stops (stops_cons.mpr rfl)
  simp [scanTag, scanStop, hscan, hspaces, afterLiteral]

end Tags

/-! ## The tags of a tree -/

mutual

/-- The tags that an element is written with. -/
def Element.tags : Element → List Tag
  | ⟨name, attributes, []⟩ => [.empty name attributes]
  | ⟨name, attributes, child :: children⟩ =>
    .start name attributes :: (child.tags ++ (allTags children ++ [.stop name]))

/-- The tags that elements are written with, one after another. -/
def Element.allTags : List Element → List Tag
  | [] => []
  | e :: elements => e.tags ++ allTags elements

end

mutual

/-- The text of an element is cut into the tags of the element. -/
theorem scanAll_write : ∀ (e : Element) (rest : List Char), e.Everywhere Element.WellNamed →
    scanAll scanTag (e.write rest) =
      ((e.mapValues xmlText).tags ++ (scanAll scanTag rest).1, (scanAll scanTag rest).2)
  | ⟨name, attributes, []⟩, rest, h => by
    have hnamed := (Element.everywhere_iff.mp h).1
    have hlength := Attributes.length_le_write attributes ('/' :: '>' :: rest)
    rw [Element.write, scanAll_of_some (scanTag_empty hnamed rest) (by simp at *; omega)]
    rfl
  | ⟨name, attributes, child :: children⟩, rest, h => by
    obtain ⟨hnamed, hchildren⟩ := Element.everywhere_iff.mp h
    have hchild := hchildren child List.mem_cons_self
    have hothers := fun c hc => hchildren c (List.mem_cons_of_mem child hc)
    -- Start tag, first child, other children and end tag follow each other.
    have hstop : scanAll scanTag ('<' :: '/' :: name.toList ++ '>' :: rest) =
        (.stop name :: (scanAll scanTag rest).1, (scanAll scanTag rest).2) :=
      scanAll_of_some (scanTag_stop hnamed rest) (by simp; omega)
    have hlength := Attributes.length_le_write attributes ('>' :: child.write
      (Element.writeAll children ('<' :: '/' :: name.toList ++ '>' :: rest)))
    rw [Element.write, scanAll_of_some (scanTag_start hnamed _) (by simp at *; omega),
      scanAll_write child _ hchild, scanAll_writeAll children _ hothers, hstop]
    simp [Element.mapValues, Element.mapAllValues, Element.tags]

/-- The text of elements is cut into the tags of these elements. -/
theorem scanAll_writeAll : ∀ (es : List Element) (rest : List Char),
    (∀ e ∈ es, e.Everywhere Element.WellNamed) →
    scanAll scanTag (Element.writeAll es rest) =
      (Element.allTags (Element.mapAllValues xmlText es) ++ (scanAll scanTag rest).1,
        (scanAll scanTag rest).2)
  | [], rest, _ => rfl
  | e :: es, rest, h => by
    rw [Element.writeAll, scanAll_write e _ (h e List.mem_cons_self),
      scanAll_writeAll es _ fun x hx => h x (List.mem_cons_of_mem e hx)]
    simp [Element.mapAllValues, Element.allTags]

end

/-! ## Putting tags together -/

mutual

/-- The tags of an element add it to the innermost open element. -/
theorem foldlM_tags : ∀ (e parent : Element) (stack : List Element),
    e.tags.foldlM nest (parent :: stack) = some (parent.withChild e :: stack)
  | ⟨name, attributes, []⟩, parent, stack => rfl
  | ⟨name, attributes, child :: children⟩, parent, stack => by
    simp only [Element.tags, List.foldlM_cons, List.foldlM_append, nest, Option.bind_eq_bind,
      Option.bind_some, foldlM_tags child, foldlM_allTags children]
    simp [Element.withChild, Element.withChildren]

/-- The tags of elements add them to the innermost open element, in order. -/
theorem foldlM_allTags : ∀ (es : List Element) (parent : Element) (stack : List Element),
    (Element.allTags es).foldlM nest (parent :: stack) = some (parent.withChildren es :: stack)
  | [], ⟨name, attributes, children⟩, stack => by simp [Element.allTags, Element.withChildren]
  | e :: es, parent, stack => by
    simp only [Element.allTags, List.foldlM_append, Option.bind_eq_bind, Option.bind_some,
      foldlM_tags e, foldlM_allTags es]
    simp [Element.withChild, Element.withChildren]

end

/-! ## What a text holds -/

theorem plain_name {name : List Char} (h : isName name) : Plain name := fun c hc =>
  isPlain_of_isNameChar (isNameChar_of_isName h c hc)

/-- The characters of markup. -/
@[simp] theorem isPlain_markup : isPlain '<' ∧ isPlain '>' ∧ isPlain '/' ∧ isPlain '=' ∧
    isPlain '"' ∧ isPlain ' ' ∧ isPlain '\n' := by decide

theorem Attributes.plain_write {attributes : Attributes} {rest : List Char}
    (h : ∀ a ∈ attributes, isName a.1.toList) (hrest : Plain rest) :
    Plain (attributes.write rest) := by
  induction attributes with
  | nil => exact hrest
  | cons a attributes ih =>
    have hname := plain_name (h a List.mem_cons_self)
    have hvalue := (plain_attributeText a.2.toList).2
    have hothers := ih fun b hb => h b (List.mem_cons_of_mem a hb)
    rw [write_cons]
    simp [hname, hvalue, hothers, isPlain_markup]

mutual

/-- Reading leaves every character of an element's text alone. -/
theorem plain_write : ∀ (e : Element) (rest : List Char), e.Everywhere Element.WellNamed →
    Plain rest → Plain (e.write rest)
  | ⟨name, attributes, []⟩, rest, h, hrest => by
    have hnamed := (Element.everywhere_iff.mp h).1
    have hname : Plain name.toList := plain_name hnamed.name
    have hafter : Plain (attributes.write ('/' :: '>' :: rest)) :=
      Attributes.plain_write hnamed.attributes (by simp [isPlain_markup, hrest])
    simp [Element.write, isPlain_markup, hname, hafter]
  | ⟨name, attributes, child :: children⟩, rest, h, hrest => by
    obtain ⟨hnamed, hchildren⟩ := Element.everywhere_iff.mp h
    have hname : Plain name.toList := plain_name hnamed.name
    have hstop : Plain ('<' :: '/' :: name.toList ++ '>' :: rest) := by
      simp [isPlain_markup, hname, hrest]
    have hothers := plain_writeAll children _
      (fun c hc => hchildren c (List.mem_cons_of_mem child hc)) hstop
    have hchild := plain_write child _ (hchildren child List.mem_cons_self) hothers
    have hafter : Plain (attributes.write ('>' :: child.write (Element.writeAll children
        ('<' :: '/' :: name.toList ++ '>' :: rest)))) :=
      Attributes.plain_write hnamed.attributes (plain_cons.mpr ⟨by decide, hchild⟩)
    simp only [Element.write, List.cons_append, plain_cons, plain_append]
    exact ⟨by decide, hname, hafter⟩

theorem plain_writeAll : ∀ (es : List Element) (rest : List Char),
    (∀ e ∈ es, e.Everywhere Element.WellNamed) → Plain rest → Plain (Element.writeAll es rest)
  | [], _, _, hrest => hrest
  | e :: es, rest, h, hrest =>
    plain_write e _ (h e List.mem_cons_self)
      (plain_writeAll es rest (fun x hx => h x (List.mem_cons_of_mem e hx)) hrest)

end

theorem joinLineEnds_of_plain {text : List Char} (h : Plain text) : joinLineEnds text = text := by
  fun_induction joinLineEnds text with
  | case1 => rfl
  | case2 => exact absurd (plain_cons.mp h).1 (by decide)
  | case3 => exact absurd (plain_cons.mp h).1 (by decide)
  | case4 c text _ _ ih => rw [ih (plain_cons.mp h).2]

/-! ## Documents -/

/-- The declaration that is written can be read. -/
theorem afterDeclaration_append (rest : List Char) :
    afterDeclaration (Document.declaration.toList ++ rest) = some rest := by
  have hshape : Document.declaration.toList ++ rest = "<?xml".toList ++
      (' ' :: "version".toList ++ '=' :: '\'' :: "1.0".toList ++ '\'' ::
        (' ' :: "encoding".toList ++ '=' :: '\'' :: "utf-8".toList ++
          '\'' :: '?' :: '>' :: rest)) := by
    simp [Document.declaration]
  have hstart : ∀ text, afterLiteral "<?xml".toList ("<?xml".toList ++ text) = some text :=
    fun text => afterLiteral_eq_some.mpr rfl
  have hversion : expand "1.0".toList = some "1.0".toList := by decide +kernel
  have hencoding : expand "utf-8".toList = some "utf-8".toList := by decide +kernel
  have hnone : scanAll scanAttribute ('?' :: '>' :: rest) = ([], '?' :: '>' :: rest) :=
    scanAll_of_none (scanAttribute_of_stops (stops_cons.mpr rfl))
  have hend : afterLiteral "?>".toList ('?' :: '>' :: rest) = some rest :=
    afterLiteral_eq_some.mpr rfl
  rw [hshape, afterDeclaration, hstart]
  simp only [Option.bind_eq_bind, Option.bind_some]
  rw [scanAll_attribute_append (by decide) (.inr rfl) (by decide) hversion,
    scanAll_attribute_append (by decide) (.inr rfl) (by decide) hencoding, hnone]
  exact hend

theorem Document.toList_text (d : Document) :
    d.text.toList = declaration.toList ++ '\n' :: d.root.write [] := by
  rw [text, String.toList_ofList]

theorem Element.write_eq_cons (e : Element) (rest : List Char) :
    ∃ text, e.write rest = '<' :: text := by
  obtain ⟨name, attributes, children⟩ := e
  cases children with
  | nil => exact ⟨_, rfl⟩
  | cons child children => exact ⟨_, rfl⟩

theorem root?_withChild (name : String) (e : Element) :
    root? [(Element.ofName name).withChild e] = some e := rfl

/-- What follows the declaration is cut into the tags of the root element, and nothing is left. -/
theorem scanAll_afterSpaces_write {e : Element} (h : e.Everywhere Element.WellNamed) :
    scanAll scanTag (afterSpaces ('\n' :: e.write [])) = ((e.mapValues xmlText).tags, []) := by
  obtain ⟨text, htext⟩ := Element.write_eq_cons e []
  have hspaces : afterSpaces ('\n' :: e.write []) = e.write [] := by
    rw [htext]
    rfl
  have hnil : scanAll scanTag [] = ([], []) := scanAll_of_none rfl
  rw [hspaces, scanAll_write e [] h, hnil, List.append_nil]

theorem Document.read?_of_wellNamed {d : Document} (h : d.root.Everywhere Element.WellNamed) :
    Document.read? d.text = some (d.mapValues xmlText) := by
  have hplain : Plain d.text.toList := by
    have hdeclaration : Plain declaration.toList := List.all_eq_true.mp (by decide)
    rw [toList_text, plain_append, plain_cons]
    exact ⟨hdeclaration, by decide, plain_write _ _ h plain_nil⟩
  have hchars : d.text.toList.all isDocumentChar := List.all_eq_true.mpr fun c hc =>
    (Bool.and_eq_true _ _ ▸ hplain c hc).1
  rw [read?, if_pos hchars, joinLineEnds_of_plain hplain, toList_text, afterDeclaration_append]
  simp only [Option.bind_eq_bind, Option.bind_some, scanAll_afterSpaces_write h, foldlM_tags,
    root?_withChild]
  rfl

/-- The text of a document can be read, and gives the document with each value as XML can hold it.
So documents whose values XML can hold have different texts. Setting attributes never makes two of
one name. -/
theorem Document.read?_text :
    (∀ d : Document, d.root.Everywhere Element.WellNamed →
      read? d.text = some (d.mapValues xmlText)) ∧
    (∀ d e : Document, d.root.Everywhere Element.WellNamed → e.root.Everywhere Element.WellNamed →
      d.root.Everywhere Element.HoldsXmlChars → e.root.Everywhere Element.HoldsXmlChars →
      d.text = e.text → d = e) ∧
    ∀ (e : Element) (name value : String), (e.attributes.map (·.1)).Nodup →
      ((e.withAttribute name value).attributes.map (·.1)).Nodup := by
  refine ⟨fun _ hd => read?_of_wellNamed hd, ?_,
    fun _ name value h => Attributes.nodup_put h name value⟩
  intro d e hd he hdchars hechars htext
  have hread := read?_of_wellNamed hd
  rw [htext, read?_of_wellNamed he, mapValues_xmlText hdchars, mapValues_xmlText hechars] at hread
  exact (Option.some.inj hread).symm

/-- A small document with a value of its own in it, twice. -/
def holding (value : String) : Document :=
  ⟨⟨"uml:Model", [("xmi:version", "2.1"), ("name", value)],
    [⟨"uml:guard", [("xmi:id", "_id1")], [⟨"uml:specification", [("value", value)], []⟩]⟩,
      ⟨"uml:lifeline", [], []⟩]⟩⟩

/-- A value that looks like the end of its tag, holds every kind of line end and a character that
XML does not have; and two values that differ in white space only. -/
theorem Document.read?_text_holding :
    read? (holding "\"/></a>&#9;\t\r\n\x07").text =
        some (holding "\"/></a>&#9;\t\r\n\uFFFD") ∧
      (holding "a\tb").text ≠ (holding "a b").text ∧
      (((holding "a").root.withAttribute "name" "b").attributes.map (·.1)).Nodup := by
  refine ⟨?_, ?_, ?_⟩
  · exact Document.read?_text.1 (holding "\"/></a>&#9;\t\r\n\x07") (by decide +kernel)
  · intro h
    have heq := Document.read?_text.2.1 (holding "a\tb") (holding "a b") (by decide +kernel)
      (by decide +kernel) (by decide +kernel) (by decide +kernel) h
    exact absurd heq (by decide +kernel)
  · exact Document.read?_text.2.2 _ _ _ (by decide)

end SequenceXmi.Xml
