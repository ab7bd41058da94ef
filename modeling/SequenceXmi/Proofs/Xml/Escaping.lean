import SequenceXmi.Proofs.Xml.Values

/-! # Escaping

The text of an attribute value comes out of several passes: characters that XML does not have are
replaced, then markup characters, then one control character after another. Values may hold what
looks like a reference, and a pass puts references where the next one looks. Still no pass changes
what another has put there, and all of them together write each character by itself
(`attributeText_eq_allPasses`).

So the text can be read from left to right, by replacing each reference by its character
(`unescape`): an ampersand is always the beginning of a reference, and what comes out is the value
as XML can hold it.

Main result: `attributeText_reversible`. -/

namespace SequenceXmi.Xml

open Text (afterLiteral scanAll scanAll_of_some scanAll_of_none)

/-! ## Characters that XML can hold -/

theorem toXmlChar_eq (c : Char) : toXmlChar c = if isDocumentChar c then c else replacement := by
  rw [toXmlChar, isDocumentChar_eq]

/-- A character is left as it is if XML has it, and only then. -/
theorem toXmlChar_eq_self_iff {c : Char} : toXmlChar c = c ↔ isDocumentChar c := by
  rw [isDocumentChar_eq]
  constructor
  · intro h
    rw [← h]
    exact isXmlChar_toXmlChar c
  · intro h
    rw [toXmlChar, if_pos h]

theorem length_xmlChars (value : List Char) : (xmlChars value).length = value.length := by
  rw [xmlChars_eq_map, List.length_map]

theorem xmlChars_eq_self_iff {value : List Char} :
    xmlChars value = value ↔ ∀ c ∈ value, isDocumentChar c := by
  rw [xmlChars_eq_map]
  induction value with
  | nil => simp
  | cons c value ih =>
    rw [List.map_cons, List.cons.injEq, toXmlChar_eq_self_iff, ih, List.forall_mem_cons]

/-! ## One pass after another -/

/-- A text with a character replaced wherever it stands. -/
def replaceChar (c : Char) (reference : List Char) (text : List Char) : List Char :=
  text.flatMap fun x => if x = c then reference else [x]

/-- The text of a value after every pass, none of which is left out. -/
def allPasses (value : List Char) : List Char :=
  let escaped := (value.map toXmlChar).flatMap markupReference
  replaceChar '\r' "&#13;".toList
    (replaceChar '\n' "&#10;".toList (replaceChar '\t' "&#9;".toList escaped))

/-- Control characters may be replaced one after another or all at once, since no reference to one
of them holds another. -/
theorem replaceChar_controls (text : List Char) :
    replaceChar '\r' "&#13;".toList
        (replaceChar '\n' "&#10;".toList (replaceChar '\t' "&#9;".toList text)) =
      text.flatMap spaceReference := by
  unfold replaceChar
  rw [List.flatMap_assoc, List.flatMap_assoc]
  congr 1
  funext c
  -- For a control character the passes run over the reference to it, and find nothing there.
  by_cases htab : c = '\t'
  · subst htab
    rfl
  by_cases hfeed : c = '\n'
  · subst hfeed
    rfl
  by_cases hreturn : c = '\r'
  · subst hreturn
    rfl
  · have hspace : spaceReference c = [c] :=
      spaceReference_eq_self (by simp [isSpaceControl, htab, hfeed, hreturn])
    rw [hspace, if_neg htab, List.flatMap_singleton, if_neg hfeed, List.flatMap_singleton,
      if_neg hreturn]

/-- Where a pass is left out it would have changed nothing. -/
theorem attributeText_eq_allPasses (value : List Char) : attributeText value = allPasses value := by
  show _ = replaceChar '\r' _ (replaceChar '\n' _ (replaceChar '\t' _ _))
  rw [replaceChar_controls, attributeText_eq_flatMap, List.flatMap_map, List.flatMap_assoc]

/-- What only looks like a reference is told from what a pass has put there. -/
example : attributeText "&#9;\t".toList = "&amp;#9;&#9;".toList := by decide

/-! ## References in a text -/

/-- The references that stand in the text of a value, with the characters that they stand for. -/
def escapes : List (List Char × Char) :=
  [("&amp;".toList, '&'), ("&lt;".toList, '<'), ("&gt;".toList, '>'), ("&quot;".toList, '"'),
    ("&apos;".toList, '\''), ("&#9;".toList, '\t'), ("&#10;".toList, '\n'), ("&#13;".toList, '\r')]

/-- The characters that never stand in the text of a value. -/
def excluded : List Char := ['<', '>', '"', '\'', '\t', '\n', '\r']

/-- The references are what is written for the characters that are not written as they stand. -/
theorem escapes_eq : escapes = referenced.map fun c => (written c, c) := rfl

theorem written_mem_escapes {c : Char} (h : c ∈ referenced) : (written c, c) ∈ escapes := by
  rw [escapes_eq]
  exact List.mem_map_of_mem h

theorem head?_of_mem_escapes : ∀ r ∈ escapes, r.1.head? = some '&' := by decide

/-- A reference holds no second ampersand. -/
theorem tail_of_mem_escapes : ∀ r ∈ escapes, '&' ∉ r.1.tail := by decide

theorem all_of_mem_escapes :
    ∀ r ∈ escapes, r.1.all fun x => isDocumentChar x && x ∉ excluded := by decide

theorem referenced_eq : referenced = '&' :: excluded := rfl

/-- A character of XML is written with characters of XML, and with none that would be taken for
markup or for a space. -/
theorem chars_of_mem_written {c : Char} (hc : isDocumentChar c) :
    ∀ x ∈ written c, isDocumentChar x ∧ x ∉ excluded := by
  by_cases href : c ∈ referenced
  · intro x hx
    have hall := List.all_eq_true.mp (all_of_mem_escapes _ (written_mem_escapes href)) x hx
    rwa [Bool.and_eq_true, decide_eq_true_eq] at hall
  · rw [written_eq_self href]
    intro x hx
    rw [List.mem_singleton.mp hx]
    rw [referenced_eq] at href
    exact ⟨hc, fun hmem => href (List.mem_cons_of_mem _ hmem)⟩

/-- Wherever an ampersand is written, a reference begins. -/
theorem exists_escape_of_ampersand {value front rest : List Char}
    (h : value.flatMap written = front ++ '&' :: rest) : ∃ r ∈ escapes, r.1 <+: '&' :: rest := by
  induction value generalizing front with
  | nil => simp at h
  | cons c value ih =>
    rw [List.flatMap_cons] at h
    -- The ampersand stands behind what is written for `c`, or in it.
    rcases List.append_eq_append_iff.mp h with ⟨later, -, hlater⟩ | ⟨part, hpart, hrest⟩
    · exact ih hlater
    · cases part with
      | nil =>
        have hnext : value.flatMap written = [] ++ '&' :: rest := hrest.symm
        exact ih hnext
      | cons x part =>
        obtain rfl : '&' = x := (List.cons.inj hrest).1
        have hc : c ∈ referenced := by
          by_contra hnot
          rw [written_eq_self hnot] at hpart
          have hmem : '&' ∈ [c] := by simp [hpart]
          rw [← List.mem_singleton.mp hmem] at hnot
          exact hnot (by decide)
        have hescape := written_mem_escapes hc
        -- In a reference an ampersand stands at the beginning only.
        cases front with
        | nil => exact ⟨_, hescape, by rw [hpart, hrest]; exact List.prefix_append _ _⟩
        | cons y front =>
          have htail := tail_of_mem_escapes _ hescape
          simp [hpart] at htail

/-! ## Reading from left to right -/

/-- The character that a text begins with a reference to, and the text after the reference. -/
def leadingEscape? (text : List Char) : Option (Char × List Char) :=
  escapes.findSome? fun r => (afterLiteral r.1 text).map (r.2, ·)

/-- Scans a reference, or else a character that stands for itself. -/
def scanEscaped : List Char → Option (Char × List Char)
  | [] => none
  | c :: text => (leadingEscape? (c :: text)).or (some (c, text))

/-- The text with every reference replaced by its character, from left to right. -/
def unescape (text : List Char) : List Char := (scanAll scanEscaped text).1

theorem leadingEscape?_append : ∀ r ∈ escapes, ∀ rest : List Char,
    leadingEscape? (r.1 ++ rest) = some (r.2, rest) := by
  intro r hr rest
  simp only [escapes, List.mem_cons, List.not_mem_nil, or_false] at hr
  rcases hr with rfl | rfl | rfl | rfl | rfl | rfl | rfl | rfl <;> rfl

/-- Only an ampersand begins a reference. -/
theorem leadingEscape?_of_ne {c : Char} (h : c ≠ '&') (text : List Char) :
    leadingEscape? (c :: text) = none := by
  rw [leadingEscape?, List.findSome?_eq_none_iff]
  intro r hr
  obtain ⟨name, hname⟩ := List.head?_eq_some_iff.mp (head?_of_mem_escapes r hr)
  rw [hname, afterLiteral, if_neg h.symm, Option.map_none]

/-- What is written for a character is scanned as this character. -/
theorem scanEscaped_written (c : Char) (rest : List Char) :
    scanEscaped (written c ++ rest) = some (c, rest) := by
  by_cases hc : c ∈ referenced
  · have hleading := leadingEscape?_append _ (written_mem_escapes hc) rest
    cases htext : written c ++ rest with
    | nil =>
      rw [htext] at hleading
      cases hleading
    | cons x text =>
      rw [htext] at hleading
      rw [scanEscaped, hleading, Option.some_or]
  · have hamp : c ≠ '&' := by
      rintro rfl
      exact hc (by decide)
    rw [written_eq_self hc, List.singleton_append, scanEscaped, leadingEscape?_of_ne hamp,
      Option.none_or]

theorem Written.ne_nil {c : Char} {text : List Char} (h : Written c text) : text ≠ [] := by
  cases h with
  | itself => exact List.cons_ne_nil _ _
  | reference name => exact List.cons_ne_nil _ _

/-- Characters are read as they were written. -/
theorem unescape_flatMap_written (value : List Char) :
    unescape (value.flatMap written) = value := by
  induction value with
  | nil => rw [List.flatMap_nil, unescape, scanAll_of_none rfl]
  | cons c value ih =>
    have hshort : (value.flatMap written).length < (written c ++ value.flatMap written).length := by
      have hpos := List.length_pos_of_ne_nil (written_spec c).ne_nil
      rw [List.length_append]
      omega
    rw [List.flatMap_cons, unescape, scanAll_of_some (scanEscaped_written c _) hshort]
    exact congrArg (c :: ·) ih

theorem unescape_attributeText (value : List Char) :
    unescape (attributeText value) = xmlChars value := by
  rw [attributeText_eq, unescape_flatMap_written]

/-! ## Result -/

/-- What is known of the text of a value. -/
structure EscapedSafely (value : List Char) : Prop where
  /-- It holds characters of XML only, and none that has a meaning of its own in a document, but
  for ampersands. -/
  chars : ∀ c ∈ attributeText value, isDocumentChar c ∧ c ∉ excluded
  /-- Every ampersand begins a reference. -/
  ampersands : ∀ front rest : List Char, attributeText value = front ++ '&' :: rest →
    ∃ r ∈ escapes, r.1 <+: '&' :: rest
  /-- The references replaced, it is the value as XML can hold it. -/
  unescaped : unescape (attributeText value) = xmlChars value
  /-- In this value the characters that XML does not have are replaced one by one. -/
  replaced : xmlChars value = value.map fun c => if isDocumentChar c then c else replacement
  length : (xmlChars value).length = value.length
  unchanged : xmlChars value = value ↔ ∀ c ∈ value, isDocumentChar c
  /-- No pass that is left out would have made a difference. -/
  passes : attributeText value = allPasses value

theorem escapedSafely (value : List Char) : EscapedSafely value where
  chars := by
    intro x hx
    rw [attributeText_eq, xmlChars_eq_map] at hx
    obtain ⟨c, hc, hwritten⟩ := List.mem_flatMap.mp hx
    obtain ⟨y, -, rfl⟩ := List.mem_map.mp hc
    have hchar : isDocumentChar (toXmlChar y) := by
      rw [isDocumentChar_eq]
      exact isXmlChar_toXmlChar y
    exact chars_of_mem_written hchar x hwritten
  ampersands := by
    intro front rest h
    rw [attributeText_eq] at h
    exact exists_escape_of_ampersand h
  unescaped := unescape_attributeText value
  replaced := by rw [xmlChars_eq_map, funext toXmlChar_eq]
  length := length_xmlChars value
  unchanged := xmlChars_eq_self_iff
  passes := attributeText_eq_allPasses value

/-- The text of a value is safe between quotation marks and can be read back exactly, so two values
have the same text just when XML holds them alike. -/
theorem attributeText_reversible :
    (∀ value : List Char, EscapedSafely value) ∧
    ∀ v w : List Char, attributeText v = attributeText w ↔ xmlChars v = xmlChars w := by
  refine ⟨escapedSafely, ?_⟩
  intro v w
  constructor
  · intro h
    rw [← unescape_attributeText v, h, unescape_attributeText]
  · intro h
    rw [attributeText_eq, h, ← attributeText_eq]

end SequenceXmi.Xml
