import SequenceXmi.Proofs.Text.Trimming
import SequenceXmi.Text.Scanner

/-! # Runs of a class of characters

A run is scanned as far as it goes, so that what is left does not go on with it. This is said once
for any class of characters (`takeWhile_append_of_stops`, `dropWhile_append_of_stops`), and then for
the two runs that have scanners of their own: blanks, and the spaces of a document format. -/

namespace SequenceXmi.Text

/-! ## Where a run stops -/

/-- The text is empty or begins outside a class of characters. -/
def Stops (p : Char → Bool) (text : List Char) : Prop := ∀ c ∈ text.head?, p c = false

instance (p : Char → Bool) (text : List Char) : Decidable (Stops p text) :=
  Option.decidableForallMem text.head?

@[simp] theorem stops_nil (p : Char → Bool) : Stops p [] := by simp [Stops]

@[simp] theorem stops_cons {p : Char → Bool} {c : Char} {text : List Char} :
    Stops p (c :: text) ↔ p c = false := by simp [Stops]

theorem stops_dropWhile (p : Char → Bool) (text : List Char) : Stops p (text.dropWhile p) :=
  head?_dropWhile

/-- What comes after a run of a class that goes as far as it can. -/
theorem dropWhile_append_of_stops {p : Char → Bool} {front rest : List Char}
    (hfront : ∀ c ∈ front, p c) (hrest : Stops p rest) : (front ++ rest).dropWhile p = rest := by
  rw [List.dropWhile_append_of_pos hfront]
  cases rest with
  | nil => rfl
  | cons c rest => simp [stops_cons.mp hrest]

/-- A run of a class that goes as far as it can. -/
theorem takeWhile_append_of_stops {p : Char → Bool} {front rest : List Char}
    (hfront : ∀ c ∈ front, p c) (hrest : Stops p rest) : (front ++ rest).takeWhile p = front := by
  rw [List.takeWhile_append_of_pos hfront]
  cases rest with
  | nil => simp
  | cons c rest => simp [stops_cons.mp hrest]

/-! ## Blanks -/

/-- Blanks and nothing else. -/
def Blanks (text : List Char) : Prop := ∀ c ∈ text, isBlank c

@[simp] theorem blanks_nil : Blanks [] := by simp [Blanks]

theorem afterBlanks_append {b rest : List Char} (hb : Blanks b) (hrest : Stops isBlank rest) :
    afterBlanks (b ++ rest) = rest :=
  dropWhile_append_of_stops hb hrest

/-- Blanks are taken as far as they go. -/
theorem afterBlanks_spec (text : List Char) :
    ∃ b, Blanks b ∧ text = b ++ afterBlanks text ∧ Stops isBlank (afterBlanks text) :=
  ⟨text.takeWhile isBlank, fun _ hc => List.mem_takeWhile_imp hc,
    List.takeWhile_append_dropWhile.symm, stops_dropWhile _ _⟩

/-! ## Spaces -/

/-- Spaces and nothing else. -/
def Spaces (text : List Char) : Prop := ∀ c ∈ text, isSpace c

theorem spaces_nil : Spaces [] := fun _ h => absurd h List.not_mem_nil

theorem Spaces.append {front back : List Char} (hfront : Spaces front) (hback : Spaces back) :
    Spaces (front ++ back) := by
  intro c hc
  rcases List.mem_append.mp hc with hc | hc
  · exact hfront c hc
  · exact hback c hc

theorem afterSpaces_append {space rest : List Char} (hspace : Spaces space)
    (hrest : Stops isSpace rest) : afterSpaces (space ++ rest) = rest :=
  dropWhile_append_of_stops hspace hrest

theorem afterSpaces_of_stops {text : List Char} (h : Stops isSpace text) :
    afterSpaces text = text :=
  afterSpaces_append spaces_nil h

end SequenceXmi.Text
