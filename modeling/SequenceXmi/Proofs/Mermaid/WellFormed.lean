import SequenceXmi.Proofs.Text.Places
import SequenceXmi.Proofs.Mermaid.RoundTrip

/-! # What is read can be written

Every statement that is read from a line can be printed again (`printable_of_mem_accepted`), though
the grammar alone does not say so. That names are words comes from the grammar. That texts have no
white space at their ends, and no line feed inside, comes from the lines, which are trimmed. That
notes and guards have no arrow comes from the order of the kinds: with an arrow their line would be
a message.

Main result: `wellFormed_read`. -/

namespace SequenceXmi.Mermaid

open Text

/-! ## Parts of a line -/

section Parts

variable {front back : List Char}

/-- The end of a trimmed line is a text that fits into a line. -/
theorem isLineText_of_append (hback : Tail back) (htrimmed : Trimmed (front ++ back))
    (hnewline : '\n' ∉ front ++ back) : IsLineText (String.ofList back) := by
  have hlast := htrimmed.2
  rw [List.getLast?_append_of_ne_nil _ hback.1] at hlast
  unfold IsLineText
  rw [String.toList_ofList]
  exact ⟨hback, fun hmem => hnewline (List.mem_append_right front hmem), hlast⟩

/-- The end of a trimmed line is a name to show, once it is trimmed in front too. -/
theorem isShownName_of_append (hback : back ≠ []) (htrimmed : Trimmed (front ++ back))
    (hnewline : '\n' ∉ front ++ back) : IsShownName (String.ofList (trim back)) := by
  have hlast := htrimmed.2
  rw [List.getLast?_append_of_ne_nil _ hback] at hlast
  unfold IsShownName
  rw [String.toList_ofList]
  refine ⟨trim_ne_nil hback hlast, fun hmem => ?_, trimmed_trim back⟩
  exact hnewline (List.mem_append_right front ((isInfix_trim back).subset hmem))

/-- Without an arrow in the line its end is a guard, once it is trimmed. -/
theorem isGuard_of_append (hnewline : '\n' ∉ front ++ back) (harrow : ¬ arrow <:+: front ++ back) :
    IsGuard (String.ofList (trim back)) := by
  have hpart : trim back <:+: front ++ back :=
    (isInfix_trim back).trans (List.suffix_append front back).isInfix
  unfold IsGuard NoArrow
  rw [String.toList_ofList]
  exact ⟨fun hmem => hnewline (hpart.subset hmem), fun h => harrow (h.trans hpart),
    trimmed_trim back⟩

theorem noArrow_of_append (harrow : ¬ arrow <:+: front ++ back) :
    NoArrow (String.ofList back) := by
  unfold NoArrow
  rw [String.toList_ofList]
  exact fun h => harrow (h.trans (List.suffix_append front back).isInfix)

end Parts

theorem isName_ofList {w : List Char} (h : Word w) : IsName (String.ofList w) := by
  unfold IsName
  rwa [String.toList_ofList]

/-- A word can be shown as it is. -/
theorem IsName.isShownName {s : String} (h : IsName s) : IsShownName s :=
  ⟨h.1, not_mem_of_word h (by decide +kernel), trimmed_of_word h⟩

/-! ## Statements -/

/-- What a line says follows the grammar of the kind that the line fits. -/
theorem exists_grammar_of_statement? {line : Line} {st : Statement}
    (h : statement? line = some st) : ∃ k : Kind, k.Fits line.text ∧ Grammar k line.text st := by
  obtain ⟨-, hst⟩ := statement?_eq_some.mp h
  obtain ⟨k, hfits, -⟩ := existsUnique_fits line.text
  exact ⟨k, hfits, (ofLine_eq_ok_iff hfits).mp hst⟩

/-- A trimmed line without a line feed says something that can be printed. -/
theorem Grammar.printable {k : Kind} {line : List Char} {st : Statement} (h : Grammar k line st)
    (hfits : k.Fits line) (htrimmed : Trimmed line) (hnewline : '\n' ∉ line) : st.Printable := by
  -- A line of a later kind is no message, so that it has no arrow.
  have harrow (hk : Kind.message.rank < k.rank) : ¬ arrow <:+: line := hfits.2 .message hk
  cases h with
  | bare _ ha => exact ⟨isName_ofList ha, fun n hn => by cases hn⟩
  | named _ ha _ _ hn =>
    refine ⟨isName_ofList ha, fun n hname => ?_⟩
    obtain rfl := Option.some.inj hname
    exact isShownName_of_append hn.1 htrimmed hnewline
  | message hs _ _ hr _ _ ht =>
    exact ⟨isName_ofList hs, isName_ofList hr, isLineText_of_append ht htrimmed hnewline⟩
  | opening operator _ => exact isGuard_of_append hnewline (harrow (by decide))
  | note _ _ _ ha _ _ ht =>
    exact ⟨isName_ofList ha, isLineText_of_append ht htrimmed hnewline,
      noArrow_of_append (harrow (by decide))⟩
  | closing | header => exact trivial

/-- Every statement of a text can be printed. -/
theorem printable_of_mem_accepted {source : String} {st : Statement} (h : st ∈ accepted source) :
    st.Printable := by
  obtain ⟨line, hline, hst⟩ := List.mem_filterMap.mp h
  obtain ⟨k, hfits, hgrammar⟩ := exists_grammar_of_statement? hst
  exact hgrammar.printable hfits (trimmed_of_mem_lines hline) (newline_not_mem_of_mem_lines hline)

/-! ## Parts of a diagram -/

namespace Statement.Printable

variable {st : Statement}

/-- A participant without a name to show is shown by its alias. -/
theorem lifeline (h : st.Printable) {l : Lifeline} (hl : st.lifeline? = some l) :
    IsName l.aliasName ∧ IsShownName l.displayName := by
  cases st with
  | participant aliasName displayName =>
    obtain rfl := Option.some.inj hl
    cases displayName with
    | none => exact ⟨h.1, h.1.isShownName⟩
    | some name => exact ⟨h.1, h.2 name rfl⟩
  | header | message | opening | closing | note => cases hl

theorem messageFits (h : st.Printable) {m : Message} (hm : st.message? = some m) :
    MessageFits m := by
  cases st with
  | message sender receiver text =>
    obtain rfl := Option.some.inj hm
    exact h
  | note target text =>
    obtain rfl := Option.some.inj hm
    exact ⟨h.1, rfl, text, rfl, h.2.1, h.2.2⟩
  | header | participant | opening | closing => cases hm

theorem isGuard (h : st.Printable) {opened : Operator × String} (ho : st.opened? = some opened) :
    IsGuard opened.2 := by
  cases st with
  | opening operator guard =>
    obtain rfl := Option.some.inj ho
    exact h
  | header | participant | message | closing | note => cases ho

end Statement.Printable

/-! ## Reading -/

/-- Whatever the text, the diagram that is read from it can be written: names are words, and texts
and guards fit into their lines. -/
theorem wellFormed_read (nesting : Nesting) (source : String) :
    WellFormed (read nesting source).diagram := by
  let ss := accepted source
  have hmessage : ∀ m ∈ ss.filterMap (·.message?), MessageFits m := by
    intro m hm
    obtain ⟨st, hst, hst'⟩ := List.mem_filterMap.mp hm
    exact (printable_of_mem_accepted hst).messageFits hst'
  -- No message stands anywhere but in the place that it is sent to.
  have hplaced (o : Option Nat) : ∀ m ∈ messagesOf nesting ss o, MessageFits m := by
    intro m hm
    exact hmessage m ((messagesOf_sublist nesting ss o).subset hm)
  rw [diagram_read]
  refine ⟨?_, hplaced none, ?_⟩
  · intro l hl
    obtain ⟨st, hst, hst'⟩ := List.mem_filterMap.mp hl
    exact (printable_of_mem_accepted hst).lifeline hst'
  · intro f hf
    obtain ⟨p, -, hp⟩ := List.mem_filterMap.mp hf
    obtain ⟨opened, hopened, rfl⟩ := Option.map_eq_some_iff.mp hp
    obtain ⟨st, hst, hst'⟩ := Option.bind_eq_some_iff.mp hopened
    refine ⟨?_, hplaced (some p)⟩
    exact (printable_of_mem_accepted (List.mem_of_getElem? hst)).isGuard hst'

end SequenceXmi.Mermaid
