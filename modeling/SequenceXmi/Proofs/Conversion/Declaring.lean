import Mathlib.Data.List.Dedup
import SequenceXmi.Proofs.Conversion.Outcome
import SequenceXmi.Proofs.Mermaid.Declaring

/-! # Following the advice of a failure

A conversion that fails for a participant advises to declare it. The advice can always be followed:
the line that it quotes is put at the end of the text, whatever the text is. `FollowsAdvice` is what
happens when this is done again and again, until a conversion gives a document.

Main result: `followsAdvice_repairs`. The measure is the list of aliases that messages use and no
lifeline has (`missing`): each line that is added takes one alias off it, and nothing else changes
about the diagram. -/

namespace SequenceXmi

open Xmi (Declares DeclaresEnds Resolved IsFirstCulprit IsCulprit Unresolved)
open Mermaid (Statement IsName declaring withLifeline)

/-! ## Missing participants -/

/-- The aliases at the ends of messages. -/
def usedAliases (d : Diagram) : List String :=
  d.allMessages.flatMap fun m => [m.sender, m.receiver]

/-- The aliases that messages use and no lifeline has, each of them once. -/
def missing (d : Diagram) : List String := ((usedAliases d).filter fun a => ¬ Declares d a).dedup

theorem mem_missing {d : Diagram} {a : String} :
    a ∈ missing d ↔ a ∈ usedAliases d ∧ ¬ Declares d a := by
  simp [missing]

theorem nodup_missing (d : Diagram) : (missing d).Nodup := List.nodup_dedup _

theorem mem_usedAliases {d : Diagram} {a : String} :
    a ∈ usedAliases d ↔ ∃ m ∈ d.allMessages, a = m.sender ∨ a = m.receiver := by
  simp [usedAliases]

/-- No alias is missing in a diagram that has a document. -/
theorem missing_eq_nil {d : Diagram} (h : Resolved d) : missing d = [] := by
  apply List.eq_nil_iff_forall_not_mem.mpr
  intro a ha
  obtain ⟨hused, hundeclared⟩ := mem_missing.mp ha
  obtain ⟨m, hm, hend⟩ := mem_usedAliases.mp hused
  obtain ⟨hsender, hreceiver⟩ := Xmi.resolved_iff.mp h m hm
  rcases hend with rfl | rfl
  · exact hundeclared hsender
  · exact hundeclared hreceiver

/-- The alias of a failure is missing. -/
theorem mem_missing_of_isFirstCulprit {d : Diagram} {u : Unresolved} (h : IsFirstCulprit d u) :
    u.aliasName ∈ missing d := by
  obtain ⟨before, m, after, hsplit, -, hculprit⟩ := h
  have hm : m ∈ d.allMessages := by simp [hsplit]
  rw [mem_missing, mem_usedAliases]
  cases hculprit with
  | sender hundeclared => exact ⟨⟨m, hm, .inl rfl⟩, hundeclared⟩
  | receiver _ hundeclared => exact ⟨⟨m, hm, .inr rfl⟩, hundeclared⟩

/-! ## One more lifeline -/

theorem declares_withLifeline {d : Diagram} {a b : String} :
    Declares (withLifeline d a) b ↔ Declares d b ∨ a = b := by
  simp [Declares, withLifeline, or_and_right, exists_or]

/-- Declaring a missing participant takes its alias off the list, and no other. -/
theorem missing_perm_cons {d : Diagram} {a : String} (h : a ∈ missing d) :
    (missing d).Perm (a :: missing (withLifeline d a)) := by
  have hused : usedAliases (withLifeline d a) = usedAliases d := rfl
  have hdeclared : a ∉ missing (withLifeline d a) := by
    intro hmem
    exact (mem_missing.mp hmem).2 (declares_withLifeline.mpr (.inr rfl))
  have hnodup : (a :: missing (withLifeline d a)).Nodup :=
    List.nodup_cons.mpr ⟨hdeclared, nodup_missing _⟩
  -- No alias is listed twice, so that it is enough to compare members.
  apply (List.perm_ext_iff_of_nodup (nodup_missing d) hnodup).mpr
  intro b
  rw [List.mem_cons, mem_missing, mem_missing, hused, declares_withLifeline]
  by_cases hb : b = a
  · subst hb
    have hmem := mem_missing.mp h
    simp [hmem]
  · have hne : a ≠ b := Ne.symm hb
    simp [hb, hne]

/-! ## Advice -/

namespace Settings

variable (s : Settings) (name : String)

/-- A failed conversion can be repaired by one line after another. Each line is the one that the
advice quotes, put at the end of the text; the aliases declared on the way are listed. -/
inductive FollowsAdvice : String → List String → Prop where
  | done {random : IdSupply} {source text : String} (h : s.convert random source name = .ok text) :
    FollowsAdvice source []
  | declare {random : IdSupply} {source : String} {u : Unresolved} {names : List String}
    (h : s.convert random source name = .error (.unresolved u))
    (rest : FollowsAdvice (declaring u.aliasName source) names) :
    FollowsAdvice source (u.aliasName :: names)

/-- An alias that is missing in a text can be declared: it is a word. -/
theorem isName_of_mem_missing {source a : String} (h : a ∈ missing (s.read source).diagram) :
    IsName a := by
  obtain ⟨m, hm, hend⟩ := mem_usedAliases.mp (mem_missing.mp h).1
  obtain ⟨hsender, hreceiver⟩ := Mermaid.isName_of_mem_allMessages s.nesting source hm
  rcases hend with rfl | rfl
  · exact hsender
  · exact hreceiver

/-- What one line of the repair does. -/
theorem missing_perm_of_convert {random : IdSupply} {source : String} {u : Unresolved}
    (h : s.convert random source name = .error (.unresolved u)) :
    (missing (s.read source).diagram).Perm
      (u.aliasName :: missing (s.read (declaring u.aliasName source)).diagram) := by
  have hmissing := mem_missing_of_isFirstCulprit (s.isFirstCulprit_of_convert random name h)
  have hread := Mermaid.read_declaring s.nesting (s.isName_of_mem_missing hmissing) source
  unfold Settings.read
  rw [hread]
  exact missing_perm_cons hmissing

/-- A repair declares the missing aliases, each of them once. -/
theorem FollowsAdvice.perm_missing {source : String} {names : List String}
    (h : FollowsAdvice s name source names) : names.Perm (missing (s.read source).diagram) := by
  induction h with
  | @done random source text h =>
    rw [missing_eq_nil ((s.exists_convert_eq_ok_iff random name).mp ⟨text, h⟩)]
  | declare h _ ih => exact (ih.cons _).trans (s.missing_perm_of_convert name h).symm

/-- Every text can be repaired. -/
theorem exists_followsAdvice (random : IdSupply) (source : String) :
    ∃ names, FollowsAdvice s name source names := by
  -- Each line takes an alias off the list of those that are missing.
  induction hn : (missing (s.read source).diagram).length generalizing source with
  | zero =>
    rcases s.convert_cases random name source with ⟨-, text, hok⟩ | ⟨-, u, hu, -⟩
    · exact ⟨[], .done hok⟩
    · have hmem := mem_missing_of_isFirstCulprit hu
      rw [List.length_eq_zero_iff.mp hn] at hmem
      cases hmem
  | succ n ih =>
    rcases s.convert_cases random name source with ⟨-, text, hok⟩ | ⟨-, u, -, herror⟩
    · exact ⟨[], .done hok⟩
    · have hlength := (s.missing_perm_of_convert name herror).length_eq
      rw [List.length_cons] at hlength
      obtain ⟨names, hnames⟩ := ih (declaring u.aliasName source) (by omega)
      exact ⟨u.aliasName :: names, .declare herror hnames⟩

/-- A text that has been repaired is converted. -/
theorem FollowsAdvice.convert {source : String} {names : List String}
    (h : FollowsAdvice s name source names) (random : IdSupply) :
    ∃ text, s.convert random (names.foldl (fun text a => declaring a text) source) name =
      .ok text := by
  induction h with
  | @done random' source text h =>
    -- The supply of identifiers does not matter.
    have hresolved := (s.exists_convert_eq_ok_iff random' name).mp ⟨text, h⟩
    exact (s.exists_convert_eq_ok_iff random name).mpr hresolved
  | declare _ _ ih => exact ih

/-- The advice of a failure can be followed, and it helps. -/
structure AdviceHelps (source : String) (u : Unresolved) : Prop where
  /-- The advice quotes the line that is put at the end of the text. -/
  advice : ∃ more, (Failure.unresolved u).advice? =
    some ("declare it with `" ++ (Statement.participant u.aliasName none).print ++ more)
  /-- The alias can be declared. -/
  isName : IsName u.aliasName
  /-- It is not declared so far. -/
  undeclared : ¬ Declares (s.read source).diagram u.aliasName
  /-- There is one more lifeline, and all else is read as before. -/
  read : s.read (declaring u.aliasName source) =
    { s.read source with diagram := withLifeline (s.read source).diagram u.aliasName }
  /-- The next conversion gives a document, or fails for another participant. -/
  next : ∀ random,
    (∃ text, s.convert random (declaring u.aliasName source) name = .ok text) ∨
      ∃ v, s.convert random (declaring u.aliasName source) name = .error (.unresolved v) ∧
        v.aliasName ≠ u.aliasName ∧
        ¬ Declares (s.read (declaring u.aliasName source)).diagram v.aliasName

theorem adviceHelps_of_convert {random : IdSupply} {source : String} {u : Unresolved}
    (h : s.convert random source name = .error (.unresolved u)) :
    AdviceHelps s name source u := by
  have hmissing := mem_missing_of_isFirstCulprit (s.isFirstCulprit_of_convert random name h)
  have hname := s.isName_of_mem_missing hmissing
  have hread := Mermaid.read_declaring s.nesting hname source
  refine ⟨?_, hname, (mem_missing.mp hmissing).2, hread, ?_⟩
  · refine ⟨"` or `participant " ++ u.aliasName ++ " as <display name>`", ?_⟩
    rw [Failure.advice?, Option.some_inj, ← String.toList_inj]
    simp [Statement.print]
  · intro random'
    rcases s.convert_cases random' name (declaring u.aliasName source) with
      ⟨-, hok⟩ | ⟨-, v, hv, herror⟩
    · exact .inl hok
    · right
      have hundeclared := (mem_missing.mp (mem_missing_of_isFirstCulprit hv)).2
      refine ⟨v, herror, ?_, hundeclared⟩
      -- The participant of the first failure is declared by now.
      intro hsame
      apply hundeclared
      unfold Settings.read
      rw [hread]
      exact declares_withLifeline.mpr (.inr hsame.symm)

/-- The advice of a failed conversion helps. Followed again and again it repairs any text, and the
lines that it takes are those that declare the missing participants, each of them once. -/
theorem followsAdvice_repairs (source : String) :
    (∀ random u, s.convert random source name = .error (.unresolved u) →
      AdviceHelps s name source u) ∧
    (∃ names, FollowsAdvice s name source names) ∧
    ∀ names, FollowsAdvice s name source names →
      names.Perm (missing (s.read source).diagram) ∧
        ∀ random, ∃ text,
          s.convert random (names.foldl (fun text a => declaring a text) source) name =
            .ok text := by
  refine ⟨?_, s.exists_followsAdvice name .sequential source, ?_⟩
  · intro random u h
    exact s.adviceHelps_of_convert name h
  · intro names h
    exact ⟨h.perm_missing, h.convert⟩

/-- A text with an open fragment at its end. Two participants are missing, one of them twice. -/
def undeclaredText : String := "participant A\nA->>B: one\nloop\nC->>B: two"

/-- Both participants are declared, though the fragment is still open. -/
theorem followsAdvice_repairs_undeclaredText :
    standard.convert .sequential undeclaredText "D" = .error (.unresolved ⟨"B", "one"⟩) ∧
      AdviceHelps standard "D" undeclaredText ⟨"B", "one"⟩ ∧
      ∃ names, FollowsAdvice standard "D" undeclaredText names ∧ names.Perm ["B", "C"] := by
  obtain ⟨hhelps, ⟨names, hnames⟩, hrepaired⟩ := followsAdvice_repairs standard "D" undeclaredText
  have hfails : standard.convert .sequential undeclaredText "D" =
      .error (.unresolved ⟨"B", "one"⟩) := by
    decide +kernel
  have hmissing : (missing (standard.read undeclaredText).diagram).Perm ["B", "C"] := by
    decide +kernel
  refine ⟨hfails, hhelps .sequential _ hfails, names, hnames, ?_⟩
  exact (hrepaired names hnames).1.trans hmissing

end Settings

end SequenceXmi
