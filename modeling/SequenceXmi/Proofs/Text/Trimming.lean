import Mathlib.Data.List.Basic
import Mathlib.Data.List.TakeWhile
import SequenceXmi.Text.Word

/-! # Trimmed texts

A text is trimmed if it neither starts nor ends with white space. Trimming gives such a text, leaves
such a text alone, and does not see white space added at either end.

Word characters are no white space, so that words are always trimmed. -/

namespace SequenceXmi.Text

/-! ## Dropping a class of characters -/

section Dropping

variable {p : Char → Bool}

/-- What is left of a text without its front begins outside the class. -/
theorem head?_dropWhile {text : List Char} : ∀ c ∈ (text.dropWhile p).head?, p c = false := by
  intro c hc
  have hhead := List.head?_dropWhile_not p text
  rw [Option.mem_def.mp hc] at hhead
  simpa using hhead

theorem dropEndWhile_append_of_all {text back : List Char} (h : ∀ c ∈ back, p c) :
    dropEndWhile p (text ++ back) = dropEndWhile p text := by
  rw [dropEndWhile, List.reverse_append, List.dropWhile_append_of_pos, dropEndWhile]
  simpa using h

/-- A text whose last character is outside the class stays as it is. -/
theorem dropEndWhile_eq_self {text : List Char} (h : ∀ c ∈ text.getLast?, p c = false) :
    dropEndWhile p text = text := by
  rcases List.eq_nil_or_concat text with rfl | ⟨front, c, rfl⟩
  · rfl
  · rw [List.concat_eq_append] at h ⊢
    exact dropEndWhile_concat front (h c (by simp))

/-- What is left ends outside the class. -/
theorem getLast?_dropEndWhile {text : List Char} :
    ∀ c ∈ (dropEndWhile p text).getLast?, p c = false := by
  intro c hc
  rw [dropEndWhile, List.getLast?_reverse] at hc
  exact head?_dropWhile c hc

/-- What is left begins as before, if anything is left. -/
theorem head?_dropEndWhile {text : List Char} :
    ∀ c ∈ (dropEndWhile p text).head?, c ∈ text.head? := by
  intro c hc
  obtain ⟨tail, htext, -⟩ := eq_dropEndWhile_append p text
  rw [htext]
  cases h : dropEndWhile p text with
  | nil => rw [h] at hc; cases hc
  | cons d rest => rw [h] at hc; exact hc

end Dropping

/-! ## Trimmed texts -/

/-- No white space at either end. -/
def Trimmed (text : List Char) : Prop :=
  (∀ c ∈ text.head?, isWhite c = false) ∧ ∀ c ∈ text.getLast?, isWhite c = false

instance (text : List Char) : Decidable (Trimmed text) :=
  @instDecidableAnd _ _ (Option.decidableForallMem text.head?)
    (Option.decidableForallMem text.getLast?)

/-- Trimming gives a trimmed text. -/
theorem trimmed_trim (text : List Char) : Trimmed (trim text) :=
  ⟨fun c hc => head?_dropWhile c (head?_dropEndWhile c hc), getLast?_dropEndWhile⟩

/-- Trimming cuts off the ends of a text and leaves all between them. -/
theorem isInfix_trim (text : List Char) : trim text <:+: text := by
  obtain ⟨front, back, htext, -, -⟩ := eq_append_trim_append text
  exact ⟨front, back, htext.symm⟩

/-- Nothing is left of white space, and of white space only. -/
theorem trim_eq_nil_iff {text : List Char} : trim text = [] ↔ ∀ c ∈ text, isWhite c := by
  constructor
  · intro hnil c hc
    obtain ⟨front, back, htext, hfront, hback⟩ := eq_append_trim_append text
    rw [htext, hnil, List.append_nil] at hc
    rcases List.mem_append.mp hc with hc | hc
    · exact List.all_eq_true.mp hfront c hc
    · exact List.all_eq_true.mp hback c hc
  · intro hwhite
    rw [trim, trimStart, List.dropWhile_eq_nil_iff.mpr hwhite]
    rfl

/-- Something is left of a text that does not end with white space. -/
theorem trim_ne_nil {text : List Char} (hne : text ≠ [])
    (hlast : ∀ c ∈ text.getLast?, isWhite c = false) : trim text ≠ [] := by
  intro hnil
  -- The last character would be white space like all others.
  have hlastWhite := trim_eq_nil_iff.mp hnil _ (List.getLast_mem hne)
  rw [hlast _ (List.getLast?_eq_some_getLast hne)] at hlastWhite
  cases hlastWhite

/-- The ends of a text decide whether it is trimmed. -/
theorem trimmed_append {front back : List Char} (hfront : front ≠ []) (hback : back ≠ [])
    (hfirst : ∀ c ∈ front.head?, isWhite c = false)
    (hlast : ∀ c ∈ back.getLast?, isWhite c = false) : Trimmed (front ++ back) := by
  constructor
  · rwa [List.head?_append_of_ne_nil _ hfront]
  · rwa [List.getLast?_append_of_ne_nil _ hback]

/-- Trimming leaves a trimmed text alone. -/
theorem trim_eq_self {text : List Char} (h : Trimmed text) : trim text = text := by
  have hstart : trimStart text = text := by
    cases text with
    | nil => rfl
    | cons c text => exact List.dropWhile_cons_of_neg (by simp [h.1 c rfl])
  rw [trim, hstart]
  exact dropEndWhile_eq_self h.2

theorem trim_eq_self_iff {text : List Char} : trim text = text ↔ Trimmed text := by
  constructor
  · intro h
    rw [← h]
    exact trimmed_trim text
  · exact trim_eq_self

/-! ## White space around a text -/

theorem trim_white_append {front text : List Char} (h : ∀ c ∈ front, isWhite c) :
    trim (front ++ text) = trim text := by
  rw [trim, trimStart, List.dropWhile_append_of_pos h]
  rfl

theorem trim_append_white {text back : List Char} (h : ∀ c ∈ back, isWhite c) :
    trim (text ++ back) = trim text := by
  simp only [trim, trimStart, trimEnd]
  rw [List.dropWhile_append]
  split
  · next hempty =>
    -- The text is white space throughout, and so is what is added to it.
    have hback : back.dropWhile isWhite = [] := List.dropWhile_eq_nil_iff.mpr h
    rw [hback, List.isEmpty_iff.mp hempty]
  · exact dropEndWhile_append_of_all h

/-- Line endings are white space. -/
theorem trim_dropEndWhile_isLineEnd (text : List Char) :
    trim (dropEndWhile isLineEnd text) = trim text := by
  obtain ⟨tail, htext, htail⟩ := eq_dropEndWhile_append isLineEnd text
  have hwhite : ∀ c ∈ tail, isWhite c := fun c hc =>
    isWhite_of_isLineEnd (List.all_eq_true.mp htail c hc)
  calc trim (dropEndWhile isLineEnd text)
      = trim (dropEndWhile isLineEnd text ++ tail) := (trim_append_white hwhite).symm
    _ = trim text := by rw [← htext]

/-! ## Words -/

/-- The code points of white space, one by one. -/
def whiteCodes : List Nat := whiteSpace.flatMap fun r => List.range' r.1 (r.2 + 1 - r.1)

theorem mem_whiteCodes {c : Char} (h : isWhite c) : c.toNat ∈ whiteCodes := by
  obtain ⟨r, hr, hc⟩ := List.any_eq_true.mp h
  obtain ⟨hfirst, hlast⟩ : r.1 ≤ c.toNat ∧ c.toNat ≤ r.2 := by simpa using hc
  exact List.mem_flatMap.mpr ⟨r, hr, List.mem_range'_1.mpr ⟨hfirst, by omega⟩⟩

theorem whiteCodes_not_alphanumeric :
    ∀ n ∈ whiteCodes, alphanumeric.any (fun r => r.1 ≤ n && n ≤ r.2) = false := by
  decide +kernel

/-- White space does not belong to words. -/
theorem isWord_of_isWhite {c : Char} (h : isWhite c) : isWord c = false := by
  have hcode := whiteCodes_not_alphanumeric c.toNat (mem_whiteCodes h)
  -- The tables of both classes have no code point in common.
  have hunderscore : c ≠ '_' := by
    rintro rfl
    exact absurd h (by decide)
  simp only [isWord, Bool.or_eq_false_iff, beq_eq_false_iff_ne]
  exact ⟨hunderscore, hcode⟩

theorem isWhite_of_isWord {c : Char} (h : isWord c) : isWhite c = false := by
  refine Bool.eq_false_iff.mpr fun hwhite => ?_
  rw [isWord_of_isWhite hwhite] at h
  cases h

end SequenceXmi.Text
