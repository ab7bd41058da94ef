import SequenceXmi.Proofs.Text.Joining
import SequenceXmi.Proofs.Text.Lines

/-! # Texts with some of their lines

A text keeps some of its physical lines, and the others are deleted, each with its line feed. What
is left is cut into exactly the lines that were kept: no two of them grow together, since every line
before the last one brings its line feed with it.

Main result: `map_text_lines_keepLines`. -/

namespace SequenceXmi.Text

/-! ## Pieces that stay pieces -/

theorem consPiece_of_ne {c : Char} (hc : c ≠ '\n') (piece : List Char) (rest : List (List Char)) :
    consPiece c (piece :: rest) = (c :: piece) :: rest := by
  unfold consPiece
  rw [if_neg hc]

/-- A piece of a text is one piece by itself. -/
theorem pieces_of_mem_pieces {text p : List Char} (h : p ∈ pieces text) : pieces p = [p] := by
  induction text generalizing p with
  | nil => exact absurd h List.not_mem_nil
  | cons c text ih =>
    change p ∈ consPiece c (pieces text) at h
    by_cases hc : c = '\n'
    · unfold consPiece at h
      rw [if_pos hc] at h
      rcases List.mem_cons.mp h with hp | hp
      · rw [hp, hc]
        rfl
      · exact ih hp
    · cases hrest : pieces text with
      | nil =>
        -- The character stands alone.
        rw [hrest] at h
        obtain rfl : p = [c] := by simpa [consPiece, hc] using h
        show consPiece c [] = [[c]]
        simp [consPiece, hc]
      | cons piece rest =>
        rw [hrest, consPiece_of_ne hc] at h
        rw [hrest] at ih
        rcases List.mem_cons.mp h with hp | hp
        · rw [hp]
          show consPiece c (pieces piece) = [c :: piece]
          rw [ih List.mem_cons_self, consPiece_of_ne hc]
        · exact ih (List.mem_cons_of_mem piece hp)

/-- A piece that another one follows ends with a line feed. -/
theorem pairwise_pieces (text : List Char) :
    (pieces text).Pairwise fun p _ => p.getLast? = some '\n' := by
  induction text with
  | nil => exact List.Pairwise.nil
  | cons c text ih =>
    show (consPiece c (pieces text)).Pairwise _
    by_cases hc : c = '\n'
    · unfold consPiece
      rw [if_pos hc, List.pairwise_cons]
      refine ⟨fun q _ => ?_, ih⟩
      rw [hc]
      rfl
    · cases hrest : pieces text with
      | nil => simp [consPiece, hc]
      | cons piece rest =>
        rw [hrest, List.pairwise_cons] at ih
        rw [consPiece_of_ne hc, List.pairwise_cons]
        refine ⟨fun q hq => ?_, ih.2⟩
        rw [List.getLast?_cons, ih.1 q hq]
        rfl

/-- Pieces in a row are cut apart again, if no line feed is missing between them. -/
theorem pieces_flatten {ps : List (List Char)} (hcut : ∀ p ∈ ps, pieces p = [p])
    (hends : ps.Pairwise fun p _ => p.getLast? = some '\n') : pieces ps.flatten = ps := by
  induction ps with
  | nil => rfl
  | cons p ps ih =>
    have hp : pieces p = [p] := hcut p List.mem_cons_self
    rw [List.pairwise_cons] at hends
    have hps := ih (fun q hq => hcut q (List.mem_cons_of_mem p hq)) hends.2
    cases ps with
    | nil => simpa using hp
    | cons q ps =>
      have hline : EndsLine p := Or.inr (hends.1 q List.mem_cons_self)
      rw [List.flatten_cons, pieces_append hline, hp, hps]
      rfl

/-! ## Keeping lines -/

/-- The pieces whose numbers are to be kept, where the first one has the given number. -/
def keptPieces (keep : Nat → Bool) (number : Nat) (ps : List (List Char)) : List (List Char) :=
  ((ps.zipIdx number).filter fun p => keep p.2).map (·.1)

/-- The text without the physical lines whose numbers are not to be kept. -/
def keepLines (keep : Nat → Bool) (source : String) : String :=
  String.ofList (keptPieces keep 1 (pieces source.toList)).flatten

section

variable (keep : Nat → Bool)

theorem keptPieces_cons (number : Nat) (p : List Char) (ps : List (List Char)) :
    keptPieces keep number (p :: ps) =
      if keep number then p :: keptPieces keep (number + 1) ps
      else keptPieces keep (number + 1) ps := by
  unfold keptPieces
  rw [List.zipIdx_cons, List.filter_cons]
  split <;> rfl

theorem keptPieces_sublist (number : Nat) (ps : List (List Char)) :
    (keptPieces keep number ps).Sublist ps := by
  have hfilter := List.filter_sublist (p := fun p => keep p.2) (l := ps.zipIdx number)
  have hsublist := hfilter.map Prod.fst
  rwa [List.zipIdx_map_fst] at hsublist

/-- What is left is cut where the whole text was cut. -/
theorem pieces_keepLines (source : String) :
    pieces (keepLines keep source).toList = keptPieces keep 1 (pieces source.toList) := by
  have hsublist := keptPieces_sublist keep 1 (pieces source.toList)
  unfold keepLines
  rw [String.toList_ofList]
  apply pieces_flatten
  · intro p hp
    exact pieces_of_mem_pieces (hsublist.subset hp)
  · exact (pairwise_pieces source.toList).sublist hsublist

theorem map_text_filter_ofPieces (number offset : Nat) (ps : List (List Char)) :
    ((Line.ofPieces number offset ps).filter fun line => keep line.number).map (·.text) =
      (keptPieces keep number ps).map trim := by
  induction ps generalizing number offset with
  | nil => rfl
  | cons p ps ih =>
    have htext : (Line.ofPiece number offset p).text = trim p := trim_dropEndWhile_isLineEnd p
    show ((Line.ofPiece number offset p :: Line.ofPieces _ _ ps).filter _).map _ = _
    rw [keptPieces_cons, List.filter_cons]
    show List.map _ (if keep number then _ else _) = _
    split
    · rw [List.map_cons, List.map_cons, htext, ih]
    · exact ih _ _

/-- The lines that are left say what the kept lines say. -/
theorem map_text_lines_keepLines (source : String) :
    (lines (keepLines keep source)).map (·.text) =
      ((lines source).filter fun line => keep line.number).map (·.text) := by
  unfold lines
  rw [map_text_ofPieces, pieces_keepLines, map_text_filter_ofPieces]

end

end SequenceXmi.Text
