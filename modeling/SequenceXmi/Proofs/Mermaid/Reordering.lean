import SequenceXmi.Proofs.Mermaid.Inert
import SequenceXmi.Proofs.Mermaid.RoundTrip

/-! # Where participants are declared

A declaration adds a lifeline and does not look at anything else, and no other line looks at the
lifelines. So a declaration can be moved past any line that is none (`Progress.step_declare`), and
in the end past all of them: the same is read if all participants are declared last
(`Progress.foldl_step_eq_foldl_declare`).

Two texts with the same declarations and the same other lines, mixed in different ways, are
therefore read in the same way, up to the places of warnings. Main result:
`unplaced_read_reordered`. -/

namespace SequenceXmi.Mermaid

open Text

/-! ## Declarations -/

/-- The lifeline that a line with this text declares; none if the line is left out, or says
something else. -/
def declared? (text : List Char) : Option Lifeline :=
  (statement? ⟨0, text, default⟩).bind (·.lifeline?)

/-- The number of a line and its place do not matter for what it declares. -/
theorem declared?_text (line : Line) :
    declared? line.text = (statement? line).bind (·.lifeline?) := rfl

namespace Progress

variable {nesting : Nesting}

theorem step_of_declared? {line : Line} {l : Lifeline} (h : declared? line.text = some l)
    (p : Progress) : p.step nesting line = p.declare l := by
  rw [declared?_text] at h
  obtain ⟨st, hst, hl⟩ := Option.bind_eq_some_iff.mp h
  rw [step_of_statement? hst]
  cases st with
  | participant aliasName displayName =>
    obtain rfl := Option.some.inj hl
    rfl
  | header | message | opening | closing | note => cases hl

/-! ### One declaration past other lines -/

theorem send_declare (p : Progress) (l : Lifeline) (m : Message) :
    (p.declare l).send m = (p.send m).declare l := by
  unfold send declare
  cases p.opened <;> rfl

theorem openFragment_declare (p : Progress) (l : Lifeline) (operator : Operator) (guard : String)
    (span : Span) :
    (p.declare l).openFragment nesting operator guard span =
      (p.openFragment nesting operator guard span).declare l := by
  cases nesting with
  | stacked => rfl
  | flat =>
    obtain ⟨lifelines, topLevel, fragments, opened, warnings⟩ := p
    cases opened <;> rfl

theorem closeFragment_declare (p : Progress) (l : Lifeline) (span : Span) :
    (p.declare l).closeFragment span = (p.closeFragment span).declare l := by
  obtain ⟨lifelines, topLevel, fragments, opened, warnings⟩ := p
  cases opened <;> rfl

/-- A declaration can be moved behind any line that is none. -/
theorem step_declare {line : Line} (h : declared? line.text = none) (p : Progress) (l : Lifeline) :
    (p.declare l).step nesting line = (p.step nesting line).declare l := by
  cases hst : statement? line with
  | some st =>
    rw [step_of_statement? hst, step_of_statement? hst]
    cases st with
    | participant aliasName displayName =>
      rw [declared?_text, hst] at h
      cases h
    | header => rfl
    | message sender receiver text => exact send_declare p l _
    | opening operator guard => exact openFragment_declare p l operator guard line.span
    | closing => exact closeFragment_declare p l line.span
    | note target text => exact send_declare p l _
  | none =>
    unfold step
    rcases statement?_eq_none.mp hst with hignorable | ⟨t, herror⟩
    · rw [if_pos hignorable, if_pos hignorable]
    · rw [herror]
      split <;> rfl

/-- A declaration can be moved behind any number of such lines. -/
theorem foldl_step_declare {ls : List Line} (h : ∀ line ∈ ls, declared? line.text = none)
    (p : Progress) (l : Lifeline) :
    ls.foldl (step nesting) (p.declare l) = (ls.foldl (step nesting) p).declare l := by
  induction ls generalizing p with
  | nil => rfl
  | cons line ls ih =>
    have hrest := fun other hother => h other (List.mem_cons_of_mem line hother)
    rw [List.foldl_cons, List.foldl_cons, step_declare (h line List.mem_cons_self)]
    exact ih hrest (p.step nesting line)

/-! ### All declarations last -/

/-- All participants can be declared after all other lines. -/
theorem foldl_step_eq_foldl_declare (ls : List Line) (p : Progress) :
    ls.foldl (step nesting) p = ((ls.map (·.text)).filterMap declared?).foldl declare
      ((ls.filter fun line => (declared? line.text).isNone).foldl (step nesting) p) := by
  induction ls generalizing p with
  | nil => rfl
  | cons line ls ih =>
    rw [List.foldl_cons, ih, List.map_cons]
    cases hline : declared? line.text with
    | none =>
      rw [List.filterMap_cons_none hline, List.filter_cons_of_pos (by rw [hline]; rfl),
        List.foldl_cons]
    | some l =>
      -- The declaration moves behind all lines that declare nothing, in front of the later ones.
      have hothers : ∀ other ∈ ls.filter fun line => (declared? line.text).isNone,
          declared? other.text = none := by
        intro other hother
        simpa using (List.mem_filter.mp hother).2
      rw [List.filterMap_cons_some hline, List.filter_cons_of_neg (by rw [hline]; exact nofun),
        List.foldl_cons, step_of_declared? hline, foldl_step_declare hothers]

theorem mapSpans_foldl_declare (f : Span → Span) (p : Progress) (ds : List Lifeline) :
    (ds.foldl declare p).mapSpans f = ds.foldl declare (p.mapSpans f) := by
  induction ds generalizing p with
  | nil => rfl
  | cons l ds ih =>
    rw [List.foldl_cons, List.foldl_cons, ih, mapSpans_declare]

/-- Lines with the same declarations in a row, and the same other texts in a row, are read in the
same way up to places. -/
theorem foldl_step_unplaced_of_declared {ls ks : List Line}
    (hdeclared : (ls.map (·.text)).filterMap declared? = (ks.map (·.text)).filterMap declared?)
    (hothers : ((ls.map (·.text)).filter fun text => (declared? text).isNone) =
      (ks.map (·.text)).filter fun text => (declared? text).isNone) :
    (ls.foldl (step nesting) start).mapSpans (fun _ => default) =
      (ks.foldl (step nesting) start).mapSpans fun _ => default := by
  have htexts : (ls.filter fun line => (declared? line.text).isNone).map (·.text) =
      (ks.filter fun line => (declared? line.text).isNone).map (·.text) := by
    rw [List.filter_map, List.filter_map] at hothers
    exact hothers
  rw [foldl_step_eq_foldl_declare ls, foldl_step_eq_foldl_declare ks, mapSpans_foldl_declare,
    mapSpans_foldl_declare, foldl_step_unplaced htexts, hdeclared]

end Progress

/-! ## Texts with their lines in another order -/

/-- Whether a line of a text declares a participant. -/
def declares (l : String) : Bool := (declared? (trim l.toList)).isSome

/-- The same lines in another order. Those that declare participants are in the same order among
themselves, and so are all others. -/
structure Reordered (ls ms : List String) : Prop where
  declarations : ms.filter declares = ls.filter declares
  others : (ms.filter fun l => !declares l) = ls.filter fun l => !declares l

/-- No line is lost, and none is added. -/
theorem Reordered.perm {ls ms : List String} (h : Reordered ls ms) : ms.Perm ls := by
  have hms := List.filter_append_perm declares ms
  rw [h.declarations, h.others] at hms
  exact hms.symm.trans (List.filter_append_perm declares ls)

section Written

variable {ls : List String}

/-- What a written text declares. -/
theorem filterMap_declared?_lines_written (h : ∀ l ∈ ls, '\n' ∉ l.toList) :
    ((lines (written ls)).map (·.text)).filterMap declared? =
      (ls.filter declares).filterMap fun l => declared? (trim l.toList) := by
  rw [map_text_lines_written h, List.filterMap_map, List.filterMap_filter]
  congr 1
  funext l
  show declared? (trim l.toList) =
    if (declared? (trim l.toList)).isSome then declared? (trim l.toList) else none
  cases declared? (trim l.toList) <;> rfl

/-- What the other lines of a written text say. -/
theorem filter_others_lines_written (h : ∀ l ∈ ls, '\n' ∉ l.toList) :
    (((lines (written ls)).map (·.text)).filter fun text => (declared? text).isNone) =
      (ls.filter fun l => !declares l).map fun l => trim l.toList := by
  rw [map_text_lines_written h, List.filter_map]
  congr 2
  funext l
  show (declared? (trim l.toList)).isNone = !(declared? (trim l.toList)).isSome
  cases declared? (trim l.toList) <;> rfl

end Written

/-! ## Reading -/

/-- Where participants are declared matters for nothing but the places of warnings. -/
theorem unplaced_read_reordered (nesting : Nesting) {ls ms : List String}
    (hls : ∀ l ∈ ls, '\n' ∉ l.toList) (h : Reordered ls ms) :
    (read nesting (written ms)).unplaced = (read nesting (written ls)).unplaced := by
  have hms : ∀ l ∈ ms, '\n' ∉ l.toList := fun l hl => hls l (h.perm.subset hl)
  have hdeclared : ((lines (written ms)).map (·.text)).filterMap declared? =
      ((lines (written ls)).map (·.text)).filterMap declared? := by
    rw [filterMap_declared?_lines_written hms, filterMap_declared?_lines_written hls,
      h.declarations]
  have hothers : (((lines (written ms)).map (·.text)).filter fun text => (declared? text).isNone) =
      ((lines (written ls)).map (·.text)).filter fun text => (declared? text).isNone := by
    rw [filter_others_lines_written hms, filter_others_lines_written hls, h.others]
  exact Progress.finish_unplaced (Progress.foldl_step_unplaced_of_declared hdeclared hothers)

end SequenceXmi.Mermaid
