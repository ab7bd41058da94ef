import SequenceXmi.Mermaid.Statement
import SequenceXmi.Proofs.Text.Scanning

/-! # What the scanners of a line accept

Each scanner is described here by the texts in front of which it succeeds, and by what it leaves:

* blanks and words are taken as far as they go, so that what is left does not go on with them;
* a keyword leaves a text that is empty or goes on with a blank.

All statements are equivalences, since the grammar of a line is shown to be the set of accepted
lines, and no more. -/

namespace SequenceXmi.Mermaid

open Text

/-! ## Classes of texts -/

/-- At least one blank, and nothing else. -/
def SomeBlanks (text : List Char) : Prop := text ≠ [] ∧ Blanks text

/-- At least one word character, and nothing else. -/
def Word (text : List Char) : Prop := text ≠ [] ∧ ∀ c ∈ text, isWord c

-- Named, so that the word is gone through and not the finite type of all characters.
instance (text : List Char) : Decidable (Word text) :=
  @instDecidableAnd _ _ inferInstance (List.decidableBAll _ text)

/-- The text is empty or begins with a blank. -/
def EndsWord (text : List Char) : Prop := ∀ c ∈ text.head?, isBlank c

/-- A text to the end of the line: something, and no blank in front. -/
def Tail (text : List Char) : Prop := text ≠ [] ∧ Stops isBlank text

instance (text : List Char) : Decidable (Tail text) := inferInstanceAs (Decidable (_ ∧ _))

/-- A blank ends a word. -/
theorem stops_isWord_of_someBlanks {b rest : List Char} (hb : SomeBlanks b) :
    Stops isWord (b ++ rest) := by
  obtain ⟨hne, hall⟩ := hb
  cases b with
  | nil => exact absurd rfl hne
  | cons c b => exact stops_cons.mpr (isWord_blank (hall c List.mem_cons_self))

/-- Blanks in front of something that ends a word end it too. -/
theorem stops_isWord_of_blanks {b rest : List Char} (hb : Blanks b) (hrest : Stops isWord rest) :
    Stops isWord (b ++ rest) := by
  cases b with
  | nil => exact hrest
  | cons c b => exact stops_isWord_of_someBlanks ⟨by simp, hb⟩

/-- A word does not begin with a blank. -/
theorem stops_isBlank_of_word {w rest : List Char} (hw : Word w) : Stops isBlank (w ++ rest) := by
  obtain ⟨hne, hall⟩ := hw
  cases w with
  | nil => exact absurd rfl hne
  | cons c w =>
    have hword := hall c List.mem_cons_self
    refine stops_cons.mpr (Bool.eq_false_iff.mpr fun hblank => ?_)
    rw [isWord_blank hblank] at hword
    cases hword

/-! ## Scanners -/

theorem afterSomeBlanks_eq_some {text rest : List Char} :
    afterSomeBlanks text = some rest ↔
      ∃ b, SomeBlanks b ∧ text = b ++ rest ∧ Stops isBlank rest := by
  constructor
  · intro h
    cases text with
    | nil => cases h
    | cons c text =>
      simp only [afterSomeBlanks] at h
      split at h
      · next hc =>
        obtain rfl := Option.some.inj h
        obtain ⟨b, hb, htext, hstop⟩ := afterBlanks_spec text
        refine ⟨c :: b, ⟨by simp, ?_⟩, by rw [List.cons_append, ← htext], hstop⟩
        intro x hx
        rcases List.mem_cons.mp hx with rfl | hx
        · exact hc
        · exact hb x hx
      · cases h
  · rintro ⟨b, ⟨hne, hb⟩, rfl, hstop⟩
    -- The first blank is asked for, the others are taken as they come.
    cases b with
    | nil => exact absurd rfl hne
    | cons c b =>
      have hc := hb c List.mem_cons_self
      have hrest := afterBlanks_append (fun x hx => hb x (List.mem_cons_of_mem c hx)) hstop
      simp [afterSomeBlanks, hc, hrest]

theorem scanWord_eq_some {text rest : List Char} {word : String} :
    scanWord text = some (word, rest) ↔
      ∃ w, Word w ∧ word = String.ofList w ∧ text = w ++ rest ∧ Stops isWord rest := by
  constructor
  · intro h
    simp only [scanWord] at h
    split at h
    · cases h
    · next hne =>
      obtain ⟨rfl, rfl⟩ := Prod.mk.inj (Option.some.inj h)
      exact ⟨text.takeWhile isWord, ⟨hne, fun _ hc => List.mem_takeWhile_imp hc⟩, rfl,
        List.takeWhile_append_dropWhile.symm, stops_dropWhile _ _⟩
  · rintro ⟨w, ⟨hne, hw⟩, rfl, rfl, hstop⟩
    simp only [scanWord, takeWhile_append_of_stops hw hstop, dropWhile_append_of_stops hw hstop]

@[simp] theorem endsWord_nil : EndsWord [] := by simp [EndsWord]

@[simp] theorem endsWord_cons {c : Char} {text : List Char} :
    EndsWord (c :: text) ↔ isBlank c := by simp [EndsWord]

theorem endsWord_of_someBlanks {b rest : List Char} (hb : SomeBlanks b) : EndsWord (b ++ rest) := by
  obtain ⟨hne, hall⟩ := hb
  cases b with
  | nil => exact absurd rfl hne
  | cons c b => exact endsWord_cons.mpr (hall c List.mem_cons_self)

theorem afterKeyword_eq_some {keyword : String} {text rest : List Char} :
    afterKeyword keyword text = some rest ↔ text = keyword.toList ++ rest ∧ EndsWord rest := by
  rw [← afterLiteral_eq_some, afterKeyword]
  cases afterLiteral keyword.toList text with
  | none => simp
  | some after =>
    cases after with
    | nil =>
      constructor
      · rintro ⟨⟩
        exact ⟨rfl, endsWord_nil⟩
      · exact fun h => h.1
    | cons c after =>
      by_cases hc : isBlank c
      · simp only [hc, if_true, Option.some.injEq]
        constructor
        · rintro rfl
          exact ⟨rfl, endsWord_cons.mpr hc⟩
        · exact fun h => h.1
      · simp only [hc, Bool.false_eq_true, if_false, Option.some.injEq, reduceCtorEq, false_iff]
        rintro ⟨rfl, hrest⟩
        exact hc (endsWord_cons.mp hrest)

theorem textAfterColon_eq_some {text : List Char} {t : String} :
    textAfterColon text = some t ↔
      ∃ b b' rest, Blanks b ∧ Blanks b' ∧ Tail rest ∧ t = String.ofList rest ∧
        text = b ++ ':' :: (b' ++ rest) := by
  constructor
  · intro h
    obtain ⟨colon, hcolon, h⟩ := Option.bind_eq_some_iff.mp h
    obtain ⟨b, hb, htext, -⟩ := afterBlanks_spec text
    obtain ⟨b', hb', hrest, hstop⟩ := afterBlanks_spec colon
    have hliteral := afterLiteral_eq_some.mp hcolon
    simp only [nonemptyRest] at h
    split at h
    · cases h
    · next hne =>
      refine ⟨b, b', afterBlanks colon, hb, hb', ⟨by simpa using hne, hstop⟩,
        (Option.some.inj h).symm, ?_⟩
      rw [← hrest, htext, hliteral]
      rfl
  · rintro ⟨b, b', rest, hb, hb', ⟨hne, hstop⟩, rfl, rfl⟩
    have hcolon : afterBlanks (b ++ ':' :: (b' ++ rest)) = ':' :: (b' ++ rest) :=
      afterBlanks_append hb (stops_cons.mpr rfl)
    have hliteral : afterLiteral [':'] (':' :: (b' ++ rest)) = some (b' ++ rest) :=
      afterLiteral_eq_some.mpr rfl
    simp [textAfterColon, hcolon, hliteral, afterBlanks_append hb' hstop, nonemptyRest, hne]

/-- The arrow stands somewhere in a text. -/
theorem hasArrow_iff {text : List Char} : hasArrow text ↔ arrow <:+: text := by
  induction text with
  | nil => simp [hasArrow, arrow]
  | cons c text ih => rw [hasArrow, Bool.or_eq_true, ih, List.isPrefixOf_iff_prefix,
    List.infix_cons_iff]

end SequenceXmi.Mermaid
