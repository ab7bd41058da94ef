import Mathlib.Data.List.Basic
import Mathlib.Data.List.TakeWhile
import SequenceXmi.Text.Scanner
import SequenceXmi.Xml.Text

/-! # Reading XML documents

A reader for documents without text between their elements, after XML 1.0: a declaration, start
tags, end tags and empty-element tags, and attributes in quotation marks of either kind. It knows
nothing of the writer. What XML calls a fatal error is refused:

* characters outside the production `Char`, and names outside the production `Name`;
* an attribute given twice in one tag;
* in a value a `<`, an entity that is not predefined, or a reference to no character of XML;
* an end tag that does not belong to the innermost open element, and anything but white space
  around the root element.

Line ends are joined first, and an attribute value is normalized: white space in it becomes spaces,
unless it is written as a reference.

The text is cut into tags first (`scanTag`), and the tags are then put together to a tree on a stack
of open elements (`nest`). -/

namespace SequenceXmi.Xml

open Text (CodeRanges afterLiteral afterSpaces isSpace scanAll)

/-! ## Classes of characters -/

/-- The characters of a document (production `Char`). -/
def documentChars : CodeRanges :=
  [(0x9, 0xA), (0xD, 0xD), (0x20, 0xD7FF), (0xE000, 0xFFFD), (0x10000, 0x10FFFF)]

/-- The characters that a name may start with (production `NameStartChar`). -/
def nameStart : CodeRanges :=
  [(0x3A, 0x3A), (0x41, 0x5A), (0x5F, 0x5F), (0x61, 0x7A), (0xC0, 0xD6), (0xD8, 0xF6),
    (0xF8, 0x2FF), (0x370, 0x37D), (0x37F, 0x1FFF), (0x200C, 0x200D), (0x2070, 0x218F),
    (0x2C00, 0x2FEF), (0x3001, 0xD7FF), (0xF900, 0xFDCF), (0xFDF0, 0xFFFD), (0x10000, 0xEFFFF)]

/-- The characters that a name may also go on with. -/
def nameRest : CodeRanges :=
  [(0x2D, 0x2E), (0x30, 0x39), (0xB7, 0xB7), (0x300, 0x36F), (0x203F, 0x2040)]

/-- The characters that a name may start with. -/
def isNameStart (c : Char) : Bool := nameStart.has c

/-- The characters of a name (production `NameChar`). -/
def isNameChar (c : Char) : Bool := CodeRanges.has (nameStart ++ nameRest) c

/-- Whether a text is a name (production `Name`). -/
def isName (text : List Char) : Bool := text.head?.any isNameStart && text.all isNameChar

/-- The characters of a document. -/
def isDocumentChar (c : Char) : Bool := documentChars.has c

/-! ## References and values -/

/-- The entities that every document may refer to. -/
def entities : List (List Char × Char) :=
  [("amp".toList, '&'), ("lt".toList, '<'), ("gt".toList, '>'), ("quot".toList, '"'),
    ("apos".toList, '\'')]

/-- The character with a code point in decimal digits, if it is one of XML. -/
def numbered? (digits : List Char) : Option Char :=
  let code := Nat.ofDigitChars 10 digits 0
  if digits ≠ [] ∧ digits.all Char.isDigit ∧ code.isValidChar ∧
      isDocumentChar (Char.ofNat code) then
    some (Char.ofNat code)
  else none

/-- The character that a reference stands for, given what is between `&` and `;`. -/
def reference? : List Char → Option Char
  | '#' :: digits => numbered? digits
  | name => entities.lookup name

/-- Cuts a text at the first occurrence of a character, which is left out. -/
def cut? (c : Char) (text : List Char) : Option (List Char × List Char) :=
  match text.dropWhile (· != c) with
  | [] => none
  | _ :: rest => some (text.takeWhile (· != c), rest)

theorem length_lt_of_cut? {c : Char} {text front rest : List Char}
    (h : cut? c text = some (front, rest)) : rest.length < text.length := by
  have hsuffix := (List.dropWhile_suffix (l := text) (· != c)).length_le
  unfold cut? at h
  split at h
  · cases h
  · next hdrop =>
    rw [hdrop, List.length_cons] at hsuffix
    cases h
    omega

theorem cut?_append {c : Char} {front : List Char} (h : c ∉ front) (rest : List Char) :
    cut? c (front ++ c :: rest) = some (front, rest) := by
  have hfront : ∀ x ∈ front, (x != c) = true := fun x hx => by
    simpa using fun hxc : x = c => h (hxc ▸ hx)
  simp [cut?, List.dropWhile_append_of_pos hfront, List.takeWhile_append_of_pos hfront]

/-- The value that is written between quotation marks: references are resolved, and white space is
made spaces. -/
def expand (text : List Char) : Option (List Char) :=
  match text with
  | [] => some []
  | '<' :: _ => none
  | '&' :: rest =>
    match _h : cut? ';' rest with
    | none => none
    | some (name, rest) => do
      let c ← reference? name
      return c :: (← expand rest)
  | c :: rest => do return (if isSpace c then ' ' else c) :: (← expand rest)
termination_by text.length
decreasing_by
  · have hlength := length_lt_of_cut? _h
    rw [List.length_cons]
    omega
  · simp

/-! ## Scanning tags -/

/-- Scans a name, as long as it goes. -/
def scanName (text : List Char) : Option (String × List Char) :=
  let name := text.takeWhile isNameChar
  if isName name then some (String.ofList name, text.dropWhile isNameChar) else none

/-- Scans the equals sign between the name of an attribute and its value. -/
def afterEquals (text : List Char) : Option (List Char) :=
  (afterLiteral ['='] (afterSpaces text)).map afterSpaces

/-- Scans a value in quotation marks of either kind. -/
def scanValue : List Char → Option (String × List Char)
  | [] => none
  | quote :: rest =>
    if quote = '"' ∨ quote = '\'' then do
      let (written, rest) ← cut? quote rest
      let value ← expand written
      return (String.ofList value, rest)
    else none

/-- Scans an attribute with the white space in front of it. -/
def scanAttribute : List Char → Option ((String × String) × List Char)
  | [] => none
  | c :: rest =>
    if isSpace c then do
      let (name, rest) ← scanName (afterSpaces rest)
      let rest ← afterEquals rest
      let (value, rest) ← scanValue rest
      return ((name, value), rest)
    else none

/-- What stands between angle brackets. -/
inductive Tag where
  /-- An element starts. -/
  | start (name : String) (attributes : Attributes)
  /-- An element starts and ends. -/
  | empty (name : String) (attributes : Attributes)
  /-- An element ends. -/
  | stop (name : String)
  deriving DecidableEq, Repr

/-- Scans the end of a tag of an element that starts. -/
def scanStartEnd (name : String) (attributes : Attributes) :
    List Char → Option (Tag × List Char)
  | '>' :: rest => some (.start name attributes, rest)
  | '/' :: '>' :: rest => some (.empty name attributes, rest)
  | _ => none

/-- Scans a tag of an element that starts, after the angle bracket. -/
def scanStart (text : List Char) : Option (Tag × List Char) := do
  let (name, rest) ← scanName text
  let (attributes, rest) := scanAll scanAttribute rest
  if (attributes.map (·.1)).Nodup then scanStartEnd name attributes (afterSpaces rest) else none

/-- Scans a tag of an element that ends, after the angle bracket and the slash. -/
def scanStop (text : List Char) : Option (Tag × List Char) := do
  let (name, rest) ← scanName text
  let rest ← afterLiteral ['>'] (afterSpaces rest)
  return (.stop name, rest)

/-- Scans a tag. -/
def scanTag : List Char → Option (Tag × List Char)
  | '<' :: '/' :: rest => scanStop rest
  | '<' :: rest => scanStart rest
  | _ => none

/-! ## Putting tags together -/

/-- The open elements after a tag, innermost first. The outermost one stands for the document and
never ends. -/
def nest : List Element → Tag → Option (List Element)
  | stack, .start name attributes => some (⟨name, attributes, []⟩ :: stack)
  | parent :: stack, .empty name attributes =>
    some (parent.withChild ⟨name, attributes, []⟩ :: stack)
  | e :: parent :: stack, .stop name =>
    if e.name = name then some (parent.withChild e :: stack) else none
  | _, _ => none

/-- The root element, if all other elements have ended. -/
def root? : List Element → Option Element
  | [⟨_, _, [root]⟩] => some root
  | _ => none

/-! ## Reading a document -/

/-- The text with every line end as one line feed. -/
def joinLineEnds : List Char → List Char
  | [] => []
  | '\r' :: '\n' :: rest => '\n' :: joinLineEnds rest
  | '\r' :: rest => '\n' :: joinLineEnds rest
  | c :: rest => c :: joinLineEnds rest

/-- What a declaration may say: the version, and that the text is UTF-8. -/
def isDeclaration (attributes : Attributes) : Bool :=
  attributes.head? == some ("version", "1.0") &&
    (attributes.tail.isEmpty || attributes.tail == [("encoding", "utf-8")])

/-- Scans the declaration at the start of a document. -/
def afterDeclaration (text : List Char) : Option (List Char) := do
  let rest ← afterLiteral "<?xml".toList text
  let (attributes, rest) := scanAll scanAttribute rest
  if isDeclaration attributes then afterLiteral "?>".toList (afterSpaces rest) else none

/-- Reads a document. -/
def Document.read? (text : String) : Option Document :=
  if text.toList.all isDocumentChar then do
    let rest ← afterDeclaration (joinLineEnds text.toList)
    let (tags, rest) := scanAll scanTag (afterSpaces rest)
    if (afterSpaces rest).isEmpty then
      let stack ← tags.foldlM nest [Element.ofName ""]
      let root ← root? stack
      return ⟨root⟩
    else none
  else none

end SequenceXmi.Xml
