import SequenceXmi.Proofs.Xml.Reader

/-! # Attribute values, written and read

Every character of a value is written by itself: as it stands, or as a reference that a reader
resolves to it (`written_spec`). So a reader gets the value back (`expand_attributeText`), nothing
in the text ends it early, and the text holds only characters that reading leaves alone. -/

namespace SequenceXmi.Xml

open Text (CodeRanges isSpace isSpace_iff)

/-! ## Characters -/

theorem toNat_lt (c : Char) : c.toNat < 0x110000 := by
  have hvalid : c.toNat.isValidChar := c.valid
  rcases hvalid with h | h <;> omega

/-- The writer and the reader have the same characters. -/
theorem isDocumentChar_eq (c : Char) : isDocumentChar c = isXmlChar c := by
  have hlast := toNat_lt c
  have htab : c = '\t' ↔ c.toNat = 9 := ⟨by rintro rfl; rfl, fun h => Char.toNat_inj.mp h⟩
  have hfeed : c = '\n' ↔ c.toNat = 10 := ⟨by rintro rfl; rfl, fun h => Char.toNat_inj.mp h⟩
  have hreturn : c = '\r' ↔ c.toNat = 13 := ⟨by rintro rfl; rfl, fun h => Char.toNat_inj.mp h⟩
  rw [Bool.eq_iff_iff]
  simp only [isDocumentChar, CodeRanges.has_iff, documentChars, isXmlChar, List.mem_cons,
    List.not_mem_nil, or_false, exists_eq_or_imp, exists_eq_left, Bool.or_eq_true, beq_iff_eq,
    Bool.and_eq_true, decide_eq_true_eq, htab, hfeed, hreturn]
  omega

/-- What stands in a text in place of a character is a character of XML. -/
theorem isXmlChar_toXmlChar (c : Char) : isXmlChar (toXmlChar c) := by
  unfold toXmlChar
  split
  · assumption
  · decide

/-- The characters that a text may hold if reading is to leave it as it is. -/
def isPlain (c : Char) : Bool := isDocumentChar c && c != '\r'

/-- A text of such characters. -/
def Plain (text : List Char) : Prop := ∀ c ∈ text, isPlain c

@[simp] theorem plain_nil : Plain [] := by simp [Plain]

@[simp] theorem plain_cons {c : Char} {text : List Char} :
    Plain (c :: text) ↔ isPlain c ∧ Plain text := List.forall_mem_cons

@[simp] theorem plain_append {front back : List Char} :
    Plain (front ++ back) ↔ Plain front ∧ Plain back := List.forall_mem_append

theorem ranges_of_names : ∀ r ∈ nameStart ++ nameRest,
    ∃ q ∈ documentChars, q.1 ≤ r.1 ∧ r.2 ≤ q.2 := by decide

/-- Names hold only characters of XML. -/
theorem isPlain_of_isNameChar {c : Char} (h : isNameChar c) : isPlain c := by
  have hreturn : c ≠ '\r' := by
    rintro rfl
    exact absurd h (by decide)
  obtain ⟨r, hr, hfirst, hlast⟩ := CodeRanges.has_iff.mp h
  obtain ⟨q, hq, hq1, hq2⟩ := ranges_of_names r hr
  have hchar : isDocumentChar c := CodeRanges.has_iff.mpr ⟨q, hq, by omega, by omega⟩
  simp [isPlain, hchar, hreturn]

/-! ## One character -/

/-- A character of XML as it stands in an attribute value. -/
def written (c : Char) : List Char := (markupReference c).flatMap spaceReference

/-- The characters that are not written as they stand. -/
def referenced : List Char := ['&', '<', '>', '"', '\'', '\t', '\n', '\r']

/-- Each character is written as it stands, or as a reference to itself. -/
inductive Written (c : Char) : List Char → Prop where
  /-- The character stands for itself. -/
  | itself (plain : c ∉ referenced) : Written c [c]
  /-- A reference stands for the character. -/
  | reference (name : List Char) (stands : reference? name = some c) (within : ';' ∉ name)
      (inside : '"' ∉ name) (plain : name.all isPlain) : Written c ('&' :: name ++ [';'])

/-- Any other character stands for itself. -/
theorem written_eq_self {c : Char} (h : c ∉ referenced) : written c = [c] := by
  simp only [referenced, List.mem_cons, List.not_mem_nil, or_false, not_or] at h
  obtain ⟨h1, h2, h3, h4, h5, h6, h7, h8⟩ := h
  have hmarkup : markupReference c = [c] := by unfold markupReference; split <;> simp_all
  have hspace : spaceReference c = [c] :=
    spaceReference_eq_self (by simp [isSpaceControl, h6, h7, h8])
  simp [written, hmarkup, hspace]

theorem written_spec (c : Char) : Written c (written c) := by
  by_cases hc : c ∈ referenced
  · simp only [referenced, List.mem_cons, List.not_mem_nil, or_false] at hc
    rcases hc with rfl | rfl | rfl | rfl | rfl | rfl | rfl | rfl
    · exact .reference "amp".toList rfl (by decide) (by decide) (by decide)
    · exact .reference "lt".toList rfl (by decide) (by decide) (by decide)
    · exact .reference "gt".toList rfl (by decide) (by decide) (by decide)
    · exact .reference "quot".toList rfl (by decide) (by decide) (by decide)
    · exact .reference "apos".toList rfl (by decide) (by decide) (by decide)
    · exact .reference "#9".toList rfl (by decide) (by decide) (by decide)
    · exact .reference "#10".toList rfl (by decide) (by decide) (by decide)
    · exact .reference "#13".toList rfl (by decide) (by decide) (by decide)
  · rw [written_eq_self hc]
    exact .itself hc

/-! ## Values -/

/-- A reader makes the character of its text again. -/
theorem expand_of_written {c : Char} {text : List Char} (h : Written c text) (rest : List Char) :
    expand (text ++ rest) = (expand rest).map (c :: ·) := by
  cases h with
  | itself hplain =>
    have hlt : c ≠ '<' := by rintro rfl; exact hplain (by decide)
    have hamp : c ≠ '&' := by rintro rfl; exact hplain (by decide)
    have hspace : (if isSpace c then ' ' else c) = c := by
      split
      · next hc =>
        rcases isSpace_iff.mp hc with rfl | rfl | rfl | rfl
        · rfl
        all_goals exact absurd (by decide) hplain
      · rfl
    rw [List.singleton_append, expand]
    · rw [hspace]
      cases expand rest <;> rfl
    · exact hlt
    · exact hamp
  | reference name hstands hwithin =>
    have hcut : cut? ';' (name ++ ';' :: rest) = some (name, rest) := cut?_append hwithin rest
    have htext : '&' :: name ++ [';'] ++ rest = '&' :: (name ++ ';' :: rest) := by simp
    rw [htext, expand]
    split
    · next hnone => rw [hcut] at hnone; cases hnone
    · next hsome =>
      rw [hcut] at hsome
      cases hsome
      rw [hstands]
      cases expand rest <;> rfl

/-- The text of a character does not end a value, and reading leaves it alone. -/
theorem plain_of_written {c : Char} {text : List Char} (h : Written c text) (hc : isXmlChar c) :
    '"' ∉ text ∧ Plain text := by
  cases h with
  | itself hplain =>
    have hquote : '"' ≠ c := by rintro rfl; exact hplain (by decide)
    have hreturn : c ≠ '\r' := by rintro rfl; exact hplain (by decide)
    simp [isPlain, isDocumentChar_eq, hc, hquote, hreturn]
  | reference _ _ _ hinside hplain =>
    have hname : Plain _ := List.all_eq_true.mp hplain
    have hamp : isPlain '&' := by decide
    have hsemicolon : isPlain ';' := by decide
    simp [hinside, hname, hamp, hsemicolon]

theorem attributeText_eq (value : List Char) :
    attributeText value = (xmlChars value).flatMap written := by
  rw [attributeText_eq_flatMap, xmlChars_eq_map, List.flatMap_map]
  rfl

/-- Reading gives back what was written: the value, as XML can hold it. -/
theorem expand_attributeText (value : List Char) :
    expand (attributeText value) = some (xmlChars value) := by
  rw [attributeText_eq]
  induction xmlChars value with
  | nil => rw [List.flatMap_nil, expand]
  | cons c text ih => rw [List.flatMap_cons, expand_of_written (written_spec c), ih]; rfl

/-- The text of a value does not end early, and reading leaves it alone. -/
theorem plain_attributeText (value : List Char) :
    '"' ∉ attributeText value ∧ Plain (attributeText value) := by
  have hall (c : Char) (hc : c ∈ xmlChars value) : '"' ∉ written c ∧ Plain (written c) := by
    rw [xmlChars_eq_map] at hc
    obtain ⟨x, -, rfl⟩ := List.mem_map.mp hc
    exact plain_of_written (written_spec _) (isXmlChar_toXmlChar x)
  rw [attributeText_eq]
  constructor
  · intro hmem
    obtain ⟨c, hc, hquote⟩ := List.mem_flatMap.mp hmem
    exact (hall c hc).1 hquote
  · intro x hx
    obtain ⟨c, hc, hx⟩ := List.mem_flatMap.mp hx
    exact (hall c hc).2 x hx

end SequenceXmi.Xml
