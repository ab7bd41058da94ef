/-! # Splitting text at a character

A text is cut at every occurrence of a separator, which is left out. There is always one part more
than there are separators, and joining the parts gives the text back. -/

namespace SequenceXmi.Text

/-- Puts a character in front of a text that is already cut. -/
def consPart (separator c : Char) (parts : List (List Char)) : List (List Char) :=
  if c = separator then [] :: parts
  else match parts with
    | [] => [[c]]
    | part :: rest => (c :: part) :: rest

/-- The parts of a text between the separators. -/
def splitOn (separator : Char) (text : List Char) : List (List Char) :=
  text.foldr (consPart separator) [[]]

@[simp] theorem splitOn_nil (separator : Char) : splitOn separator [] = [[]] := rfl

@[simp] theorem splitOn_cons (separator c : Char) (text : List Char) :
    splitOn separator (c :: text) = consPart separator c (splitOn separator text) := rfl

theorem splitOn_ne_nil (separator : Char) (text : List Char) : splitOn separator text ≠ [] := by
  cases text with
  | nil => simp
  | cons c text =>
    rw [splitOn_cons]
    unfold consPart
    split
    · simp
    · split <;> simp

/-- Joining the parts gives the text back. -/
theorem intercalate_splitOn (separator : Char) (text : List Char) :
    [separator].intercalate (splitOn separator text) = text := by
  induction text with
  | nil => rfl
  | cons c text ih =>
    rw [splitOn_cons]
    unfold consPart
    obtain ⟨part, rest, h⟩ := List.exists_cons_of_ne_nil (splitOn_ne_nil separator text)
    rw [h] at ih ⊢
    split
    · rename_i hc
      rw [← ih, hc]
      rfl
    · rw [← ih]
      cases rest <;> rfl

end SequenceXmi.Text
