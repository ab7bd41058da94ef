import SequenceXmi.Xml.Element

/-! # The text of an XML document

A document is written as a declaration line and its root element. Attribute values may be any text:
markup characters are written as entity references, and the three characters that a reader would
turn into spaces as character references. Characters that XML has no form for are replaced, so that
every document can be read. Names are written as they are. -/

namespace SequenceXmi.Xml

/-! ## Characters of XML -/

/-- The characters that an XML 1.0 document may hold (its production `Char`). -/
def isXmlChar (c : Char) : Bool :=
  c == '\t' || c == '\n' || c == '\r' || (0x20 ≤ c.toNat && c.toNat ≤ 0xD7FF) ||
    (0xE000 ≤ c.toNat && c.toNat ≤ 0xFFFD) || 0x10000 ≤ c.toNat

/-- The replacement character U+FFFD. -/
def replacement : Char := '\uFFFD'

/-- A character as XML can hold it. -/
def toXmlChar (c : Char) : Char := if isXmlChar c then c else replacement

/-- A text as XML can hold it; a text that needs no change stays as it is. -/
def xmlChars (text : List Char) : List Char :=
  if text.all isXmlChar then text else text.map toXmlChar

/-- A text of XML characters only stays as it is. -/
theorem map_toXmlChar_of_all {text : List Char} (h : text.all isXmlChar = true) :
    text.map toXmlChar = text := by
  induction text with
  | nil => rfl
  | cons c text ih =>
    simp only [List.all_cons, Bool.and_eq_true] at h
    simp [toXmlChar, h.1, ih h.2]

theorem xmlChars_eq_map (text : List Char) : xmlChars text = text.map toXmlChar := by
  unfold xmlChars
  split
  · rename_i h; exact (map_toXmlChar_of_all h).symm
  · rfl

/-! ## References -/

/-- A character as it stands in an attribute value, if it is a markup character. -/
def markupReference : Char → List Char
  | '&' => "&amp;".toList
  | '<' => "&lt;".toList
  | '>' => "&gt;".toList
  | '"' => "&quot;".toList
  | '\'' => "&apos;".toList
  | c => [c]

/-- A character as it stands in an attribute value, if a reader would take it for a space. -/
def spaceReference : Char → List Char
  | '\t' => "&#9;".toList
  | '\n' => "&#10;".toList
  | '\r' => "&#13;".toList
  | c => [c]

/-- The characters that a reader of an attribute value takes for a space. -/
def isSpaceControl (c : Char) : Bool := c == '\t' || c == '\n' || c == '\r'

/-- The text of an attribute value, between its quotation marks; a text without control characters
needs no second pass. -/
def attributeText (value : List Char) : List Char :=
  let escaped := (xmlChars value).flatMap markupReference
  if escaped.any isSpaceControl then escaped.flatMap spaceReference else escaped

/-- Any other character stays as it is. -/
theorem spaceReference_eq_self {c : Char} (h : isSpaceControl c = false) :
    spaceReference c = [c] := by
  unfold spaceReference
  split <;> simp_all [isSpaceControl]

/-- A text without control characters stays as it is. -/
theorem flatMap_spaceReference_of_any {text : List Char} (h : text.any isSpaceControl = false) :
    text.flatMap spaceReference = text := by
  induction text with
  | nil => rfl
  | cons c text ih =>
    simp only [List.any_cons, Bool.or_eq_false_iff] at h
    simp [spaceReference_eq_self h.1, ih h.2]

/-- Each character of a value is written by itself, in three steps. -/
theorem attributeText_eq_flatMap (value : List Char) :
    attributeText value =
      value.flatMap fun c => (markupReference (toXmlChar c)).flatMap spaceReference := by
  have key : attributeText value =
      ((xmlChars value).flatMap markupReference).flatMap spaceReference := by
    simp only [attributeText]
    split
    · rfl
    · rename_i h; exact (flatMap_spaceReference_of_any (Bool.not_eq_true _ ▸ h)).symm
  rw [key, xmlChars_eq_map, List.flatMap_map, List.flatMap_assoc]

/-! ## Elements and documents -/

/-- Writes attributes in front of a text. -/
def Attributes.write (attributes : Attributes) (rest : List Char) : List Char :=
  attributes.foldr
    (fun (name, value) rest =>
      ' ' :: name.toList ++ '=' :: '"' :: attributeText value.toList ++ '"' :: rest)
    rest

mutual

/-- Writes an element in front of a text: as one empty tag, or as a start and an end tag with the
children in between. -/
def Element.write : Element → List Char → List Char
  | ⟨name, attributes, []⟩, rest =>
    '<' :: name.toList ++ attributes.write ('/' :: '>' :: rest)
  | ⟨name, attributes, child :: children⟩, rest =>
    '<' :: name.toList ++ attributes.write
      ('>' :: child.write (writeAll children
        ('<' :: '/' :: name.toList ++ '>' :: rest)))

/-- Writes elements one after another in front of a text. -/
def Element.writeAll : List Element → List Char → List Char
  | [], rest => rest
  | e :: elements, rest => e.write (writeAll elements rest)

end

/-- A document: one element with everything below it. -/
structure Document where
  root : Element
  deriving DecidableEq, Repr

namespace Document

/-- The line in front of the root element. -/
def declaration : String := "<?xml version='1.0' encoding='utf-8'?>"

/-- The document as text. -/
def text (d : Document) : String :=
  String.ofList (declaration.toList ++ '\n' :: d.root.write [])

end Document

end SequenceXmi.Xml
