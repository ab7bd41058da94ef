import SequenceXmi.Text.Line
import SequenceXmi.Proofs.Mermaid.Grammar

/-! # Statements as lines

`Statement.print` writes a statement as one line. A statement is printable if its names are words
and its texts fit into a line; then the line, once trimmed, is read as the same statement.

Main result: `ofLine_trim_print`. The kind of a printed line is decided by the word it begins with
and by the arrow, which stands in no line but that of a message, or behind the name of a
participant. -/

namespace SequenceXmi.Mermaid

open Text

/-! ## Printing -/

/-- The line of a statement. -/
def Statement.print : Statement → String
  | .header => "sequenceDiagram"
  | .participant aliasName none => "participant " ++ aliasName
  | .participant aliasName (some displayName) =>
    "participant " ++ aliasName ++ " as " ++ displayName
  | .message sender receiver text => sender ++ "->>" ++ receiver ++ ": " ++ text
  | .opening operator guard => operator.keyword ++ " " ++ guard
  | .closing => "end"
  | .note target text => "Note over " ++ target ++ ": " ++ text

/-- A name by which lifelines are called: a word. -/
def IsName (s : String) : Prop := Word s.toList

/-- A name to show: not empty, on one line, without white space around it. -/
def IsShownName (s : String) : Prop := s.toList ≠ [] ∧ '\n' ∉ s.toList ∧ Trimmed s.toList

/-- A text to the end of a line: not empty, on one line, without a blank in front and without white
space at the end. -/
def IsLineText (s : String) : Prop :=
  Tail s.toList ∧ '\n' ∉ s.toList ∧ ∀ c ∈ s.toList.getLast?, isWhite c = false

/-- A text without the arrow, which would make its line a message. -/
def NoArrow (s : String) : Prop := ¬ arrow <:+: s.toList

/-- A guard: possibly empty, on one line, without an arrow and without white space around it. -/
def IsGuard (s : String) : Prop := '\n' ∉ s.toList ∧ NoArrow s ∧ Trimmed s.toList

instance (s : String) : Decidable (IsName s) := inferInstanceAs (Decidable (Word _))

instance (s : String) : Decidable (IsShownName s) := inferInstanceAs (Decidable (_ ∧ _ ∧ _))

instance (s : String) : Decidable (IsLineText s) :=
  @instDecidableAnd _ _ inferInstance
    (@instDecidableAnd _ _ inferInstance (Option.decidableForallMem s.toList.getLast?))

instance (s : String) : Decidable (NoArrow s) := inferInstanceAs (Decidable (¬ _))

instance (s : String) : Decidable (IsGuard s) := inferInstanceAs (Decidable (_ ∧ _ ∧ _))

/-- A statement that can be written as a line. -/
def Statement.Printable : Statement → Prop
  | .header => True
  | .participant aliasName displayName => IsName aliasName ∧ ∀ n ∈ displayName, IsShownName n
  | .message sender receiver text => IsName sender ∧ IsName receiver ∧ IsLineText text
  | .opening _ guard => IsGuard guard
  | .closing => True
  | .note target text => IsName target ∧ IsLineText text ∧ NoArrow text

/-! ## Words in front of a line -/

/-- If a line begins with a word, the word is the only keyword that it can lead with. -/
theorem LeadsWith.eq_word {keyword : String} {w rest : List Char}
    (hkey : ∀ c ∈ keyword.toList, isWord c) (hw : Word w) (hrest : Stops isWord rest)
    (h : LeadsWith keyword (w ++ rest)) : keyword.toList = w ∧ EndsWord rest := by
  obtain ⟨after, hline, hafter⟩ := h
  have hstop : Stops isWord after := fun c hc => isWord_blank (hafter c hc)
  -- Cut both readings of the line where its run of word characters ends.
  have hword : keyword.toList = w := by
    rw [← takeWhile_append_of_stops hw.2 hrest, hline, takeWhile_append_of_stops hkey hstop]
  refine ⟨hword, ?_⟩
  rw [hword] at hline
  rwa [List.append_cancel_left hline]

/-- The arrow does not begin in a text without a dash. -/
theorem arrow_infix_of_append {front back : List Char} (hdash : '-' ∉ front)
    (h : arrow <:+: front ++ back) : arrow <:+: back := by
  induction front with
  | nil => exact h
  | cons c front ih =>
    obtain ⟨hc, hfront⟩ : '-' ≠ c ∧ '-' ∉ front := by simpa using hdash
    rcases List.infix_cons_iff.mp h with hprefix | hinfix
    · -- The arrow begins with a dash.
      exact absurd (List.cons_prefix_cons.mp hprefix).1 hc
    · exact ih hfront hinfix

theorem not_mem_of_word {w : List Char} {c : Char} (hw : Word w) (hc : isWord c = false) :
    c ∉ w := by
  intro hmem
  have hword := hw.2 c hmem
  rw [hc] at hword
  cases hword

/-- White space contains the blanks. -/
theorem isBlank_eq_false {c : Char} (h : isWhite c = false) : isBlank c = false := by
  refine Bool.eq_false_iff.mpr fun hblank => ?_
  rw [isWhite_of_isBlank hblank] at h
  cases h

theorem trimmed_of_word {w : List Char} (hw : Word w) : Trimmed w :=
  ⟨fun c hc => isWhite_of_isWord (hw.2 c (List.mem_of_mem_head? hc)),
    fun c hc => isWhite_of_isWord (hw.2 c (List.mem_of_mem_getLast? hc))⟩

/-- A line that begins with a word says something. -/
theorem not_isIgnorable_of_word {line : Line} {w rest : List Char} (hw : Word w)
    (htext : line.text = w ++ rest) : line.isIgnorable = false := by
  obtain ⟨hne, hall⟩ := hw
  cases w with
  | nil => exact absurd rfl hne
  | cons c w =>
    have hc : '%' ≠ c := by
      rintro rfl
      exact absurd (hall '%' List.mem_cons_self) (by decide +kernel)
    unfold Line.isIgnorable
    rw [htext, List.cons_append, List.isPrefixOf, beq_false_of_ne hc]
    rfl

/-! ## Kinds of printed lines -/

/-- Blanks in printed lines are single spaces. -/
theorem someBlanks_space : SomeBlanks [' '] := by
  refine ⟨by decide, ?_⟩
  intro c hc
  obtain rfl := List.mem_singleton.mp hc
  rfl

theorem word_participant : Word "participant".toList := by decide +kernel

theorem fits_participant {rest : List Char} (hrest : EndsWord rest) :
    Kind.participant.Fits ("participant".toList ++ rest) := by
  refine ⟨⟨rest, rfl, hrest⟩, ?_⟩
  intro j hj
  exact absurd hj (Nat.not_lt_zero _)

/-- A sender is no keyword, since the arrow follows it at once. -/
theorem fits_message {s rest : List Char} (hs : Word s) :
    Kind.message.Fits (s ++ (arrow ++ rest)) := by
  refine ⟨⟨s, rest, by simp⟩, ?_⟩
  intro j hj hshape
  obtain rfl : j = .participant := Kind.rank_injective (Nat.lt_one_iff.mp hj)
  have hstop : Stops isWord (arrow ++ rest) := stops_cons.mpr (by decide +kernel)
  -- The sender may be the keyword itself, but then no blank ends it.
  have hends := (LeadsWith.eq_word word_participant.2 hs hstop hshape).2
  exact absurd (endsWord_cons.mp hends) (by decide)

/-- The keywords that lines of a kind lead with. -/
def Kind.keywords : Kind → List String
  | participant => ["participant"]
  | opening => [Operator.alt.keyword, Operator.loop.keyword]
  | closing => ["end"]
  | note => ["Note"]
  | message | header => []

theorem Kind.eq_of_mem_keywords {j k : Kind} {keyword : String} (hj : keyword ∈ j.keywords)
    (hk : keyword ∈ k.keywords) : j = k := by
  have hall : ∀ a ∈ j.keywords, a ∈ k.keywords → j = k := by
    cases j <;> cases k <;> decide
  exact hall keyword hj hk

theorem Kind.word_of_mem_keywords {k : Kind} {keyword : String} (h : keyword ∈ k.keywords) :
    Word keyword.toList := by
  have hall : ∀ a ∈ k.keywords, Word a.toList := by
    cases k <;> decide +kernel
  exact hall keyword h

/-- Lines of most kinds lead with a keyword of their kind. -/
theorem Kind.Shape.leadsWith {k : Kind} {line : List Char} (h : k.Shape line) :
    k = .message ∨ k = .header ∨ ∃ keyword ∈ k.keywords, LeadsWith keyword line := by
  cases k with
  | message => exact .inl rfl
  | header => exact .inr (.inl rfl)
  | opening =>
    obtain ⟨operator, h⟩ := h
    refine .inr (.inr ⟨operator.keyword, ?_, h⟩)
    cases operator <;> decide
  | participant | closing | note => exact .inr (.inr ⟨_, List.mem_singleton.mpr rfl, h⟩)

/-- A line without an arrow is of the kind of the keyword that it leads with. -/
theorem fits_keyword {k : Kind} {keyword : String} {rest : List Char} (hk : keyword ∈ k.keywords)
    (hrest : EndsWord rest) (harrow : ¬ arrow <:+: keyword.toList ++ rest) :
    k.Fits (keyword.toList ++ rest) := by
  have hlead : LeadsWith keyword (keyword.toList ++ rest) := ⟨rest, rfl, hrest⟩
  constructor
  · cases k with
    | participant | closing | note =>
      obtain rfl := List.mem_singleton.mp hk
      exact hlead
    | opening =>
      rcases List.mem_pair.mp hk with rfl | rfl
      · exact ⟨.alt, hlead⟩
      · exact ⟨.loop, hlead⟩
    | message | header => cases hk
  · intro j hj hshape
    -- A kind that is asked before would need the arrow, or another keyword in front.
    rcases hshape.leadsWith with rfl | rfl | ⟨other, hother, hleads⟩
    · exact harrow hshape
    · cases k <;> exact absurd hj (by decide)
    · have hstop : Stops isWord rest := fun c hc => isWord_blank (hrest c hc)
      have heq := (hleads.eq_word (Kind.word_of_mem_keywords hother).2
        (Kind.word_of_mem_keywords hk) hstop).1
      rw [String.toList_inj] at heq
      obtain rfl := Kind.eq_of_mem_keywords hother (heq ▸ hk)
      exact absurd hj (Nat.lt_irrefl _)

/-! ## Reading printed lines -/

/-- A text that is read as a statement; it begins with a word, so that its line is not ignored. -/
structure ReadsAs (text : List Char) (st : Statement) : Prop where
  ofLine : Statement.ofLine text = .ok st
  word : ∃ w rest, Word w ∧ text = w ++ rest

/-- A line that fits a kind is read by the grammar of this kind, if it begins with a word and does
not end with white space. -/
theorem ReadsAs.of_grammar {k : Kind} {w middle back : List Char} {st : Statement} (hw : Word w)
    (hback : back ≠ []) (hlast : ∀ c ∈ back.getLast?, isWhite c = false)
    (hfits : k.Fits (w ++ middle ++ back)) (hgrammar : Grammar k (w ++ middle ++ back) st) :
    ReadsAs (trim (w ++ middle ++ back)) st := by
  have htrimmed : Trimmed (w ++ middle ++ back) := by
    apply trimmed_append (by simp [hw.1]) hback _ hlast
    rw [List.head?_append_of_ne_nil _ hw.1]
    exact (trimmed_of_word hw).1
  rw [trim_eq_self htrimmed]
  exact ⟨(ofLine_eq_ok_iff hfits).mpr hgrammar, w, middle ++ back, hw, List.append_assoc _ _ _⟩

theorem readsAs_participant {aliasName : String} (hname : IsName aliasName) :
    ReadsAs (trim (Statement.participant aliasName none).print.toList)
      (.participant aliasName none) := by
  have hline : (Statement.participant aliasName none).print.toList =
      "participant".toList ++ [' '] ++ aliasName.toList := by
    simp [Statement.print]
  rw [hline]
  apply ReadsAs.of_grammar word_participant hname.1 (trimmed_of_word hname).2
  · rw [List.append_assoc]
    exact fits_participant (endsWord_of_someBlanks someBlanks_space)
  · have hgrammar := Grammar.bare someBlanks_space hname
    rwa [String.ofList_toList] at hgrammar

theorem readsAs_namedParticipant {aliasName displayName : String} (hname : IsName aliasName)
    (hshown : IsShownName displayName) :
    ReadsAs (trim (Statement.participant aliasName (some displayName)).print.toList)
      (.participant aliasName (some displayName)) := by
  obtain ⟨hne, -, hends⟩ := hshown
  have hline : (Statement.participant aliasName (some displayName)).print.toList =
      "participant".toList ++ ([' '] ++ aliasName.toList ++ [' '] ++ "as".toList ++ [' ']) ++
        displayName.toList := by
    simp [Statement.print]
  rw [hline]
  apply ReadsAs.of_grammar word_participant hne hends.2
  · rw [List.append_assoc]
    exact fits_participant (by simp [isBlank])
  · have htail : Tail displayName.toList := ⟨hne, fun c hc => isBlank_eq_false (hends.1 c hc)⟩
    have hgrammar := Grammar.named someBlanks_space hname someBlanks_space someBlanks_space htail
    rw [trim_eq_self hends, String.ofList_toList, String.ofList_toList] at hgrammar
    simpa only [List.append_assoc] using hgrammar

theorem readsAs_message {sender receiver text : String} (hsender : IsName sender)
    (hreceiver : IsName receiver) (htext : IsLineText text) :
    ReadsAs (trim (Statement.message sender receiver text).print.toList)
      (.message sender receiver text) := by
  obtain ⟨htail, -, hlast⟩ := htext
  have hline : (Statement.message sender receiver text).print.toList =
      sender.toList ++ (arrow ++ receiver.toList ++ [':'] ++ [' ']) ++ text.toList := by
    simp [Statement.print, arrow]
  rw [hline]
  apply ReadsAs.of_grammar hsender htail.1 hlast
  · simp only [List.append_assoc]
    exact fits_message hsender
  · have hgrammar := Grammar.message hsender blanks_nil blanks_nil hreceiver blanks_nil
      someBlanks_space.2 htail
    rw [String.ofList_toList, String.ofList_toList, String.ofList_toList] at hgrammar
    simpa only [List.append_assoc, List.nil_append] using hgrammar

theorem readsAs_opening {operator : Operator} {guard : String} (hguard : IsGuard guard) :
    ReadsAs (trim (Statement.opening operator guard).print.toList) (.opening operator guard) := by
  obtain ⟨-, harrow, htrimmed⟩ := hguard
  have hkey : operator.keyword ∈ Kind.opening.keywords := by
    cases operator <;> decide
  have hword := Kind.word_of_mem_keywords hkey
  have hdash : '-' ∉ operator.keyword.toList := not_mem_of_word hword (by decide +kernel)
  have hline : (Statement.opening operator guard).print.toList =
      operator.keyword.toList ++ [' '] ++ guard.toList := by
    simp [Statement.print]
  rw [hline]
  have hspace : ∀ c ∈ [' '], isWhite c := fun c hc => isWhite_of_isBlank (someBlanks_space.2 c hc)
  have hends : EndsWord ([' '] ++ guard.toList) := endsWord_of_someBlanks someBlanks_space
  by_cases hempty : guard.toList = []
  · -- The space after the keyword is trimmed away.
    obtain rfl : guard = "" := String.toList_eq_nil_iff.mp hempty
    rw [hempty, List.append_nil, trim_append_white hspace, trim_eq_self (trimmed_of_word hword)]
    have hfits : Kind.opening.Fits (operator.keyword.toList ++ []) := by
      apply fits_keyword hkey endsWord_nil
      intro h
      exact absurd (arrow_infix_of_append hdash h) (by decide)
    rw [← List.append_nil operator.keyword.toList]
    exact ⟨(ofLine_eq_ok_iff hfits).mpr (.opening operator endsWord_nil), _, _, hword, rfl⟩
  · apply ReadsAs.of_grammar hword hempty htrimmed.2
    · rw [List.append_assoc]
      apply fits_keyword hkey hends
      intro h
      rw [← List.append_assoc] at h
      exact harrow (arrow_infix_of_append (by simpa using hdash) h)
    · have hgrammar := Grammar.opening operator hends
      rw [trim_white_append hspace, trim_eq_self htrimmed, String.ofList_toList] at hgrammar
      rwa [List.append_assoc]

theorem readsAs_note {target text : String} (htarget : IsName target) (htext : IsLineText text)
    (harrow : NoArrow text) :
    ReadsAs (trim (Statement.note target text).print.toList) (.note target text) := by
  obtain ⟨htail, -, hlast⟩ := htext
  have hkey : "Note" ∈ Kind.note.keywords := List.mem_singleton.mpr rfl
  have hword := Kind.word_of_mem_keywords hkey
  have hline : (Statement.note target text).print.toList =
      "Note".toList ++ ([' '] ++ "over".toList ++ [' '] ++ target.toList ++ [':'] ++ [' ']) ++
        text.toList := by
    simp [Statement.print]
  rw [hline]
  apply ReadsAs.of_grammar hword htail.1 hlast
  · rw [List.append_assoc]
    apply fits_keyword hkey (by simp [isBlank])
    intro h
    rw [← List.append_assoc] at h
    have hdash : '-' ∉ target.toList := not_mem_of_word htarget (by decide +kernel)
    exact harrow (arrow_infix_of_append (by simpa using hdash) h)
  · have hgrammar := Grammar.note someBlanks_space .above someBlanks_space htarget blanks_nil
      someBlanks_space.2 htail
    rw [String.ofList_toList, String.ofList_toList] at hgrammar
    simpa only [List.append_assoc, List.nil_append] using hgrammar

/-- A printed statement is read back. -/
theorem readsAs_print {st : Statement} (h : st.Printable) : ReadsAs (trim st.print.toList) st := by
  cases st with
  | header =>
    exact ⟨by decide +kernel, "sequenceDiagram".toList, [], by decide +kernel, by decide +kernel⟩
  | participant aliasName displayName =>
    cases displayName with
    | none => exact readsAs_participant h.1
    | some displayName => exact readsAs_namedParticipant h.1 (h.2 displayName rfl)
  | message sender receiver text => exact readsAs_message h.1 h.2.1 h.2.2
  | opening operator guard => exact readsAs_opening h
  | closing => exact ⟨by decide +kernel, "end".toList, [], by decide +kernel, by decide +kernel⟩
  | note target text => exact readsAs_note h.1 h.2.1 h.2.2

/-- A printed statement is one line. -/
theorem newline_not_mem_print {st : Statement} (h : st.Printable) : '\n' ∉ st.print.toList := by
  have hword {s : String} (hs : IsName s) : '\n' ∉ s.toList :=
    not_mem_of_word hs (by decide +kernel)
  cases st with
  | header => decide +kernel
  | participant aliasName displayName =>
    cases displayName with
    | none => simp [Statement.print, hword h.1]
    | some displayName => simp [Statement.print, hword h.1, (h.2 displayName rfl).2.1]
  | message sender receiver text => simp [Statement.print, hword h.1, hword h.2.1, h.2.2.2.1]
  | opening operator guard =>
    have hkey : '\n' ∉ operator.keyword.toList := by
      cases operator <;> decide +kernel
    simp [Statement.print, hkey, h.1]
  | closing => decide +kernel
  | note target text => simp [Statement.print, hword h.1, h.2.1.2.1]

end SequenceXmi.Mermaid
