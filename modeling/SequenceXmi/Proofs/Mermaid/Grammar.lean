import Mathlib.Data.Nat.Find
import SequenceXmi.Proofs.Mermaid.Scanners

/-! # The grammar of a line

Each kind of line has a shape, which decides whether a line is of that kind, and a grammar, which
decides whether such a line is a statement. `Kind.Shape` and `Grammar` say both without scanners.

Main result: `ofLine_iff_grammar`. A line is of the first kind whose shape it has; reading it gives
the statement that the grammar of this kind gives it, or the code of this kind if there is none. -/

namespace SequenceXmi.Mermaid

open Text

/-! ## Kinds of lines -/

/-- The kinds of lines, the one that is asked first in front. -/
inductive Kind where
  | participant
  | message
  | opening
  | closing
  | note
  | header
  deriving DecidableEq, Repr

namespace Kind

/-- How many kinds are asked before. -/
def rank : Kind → Nat
  | participant => 0
  | message => 1
  | opening => 2
  | closing => 3
  | note => 4
  | header => 5

/-- The code under which a line of this kind is reported if it breaks its grammar. -/
def code : Kind → String
  | participant => "E101"
  | message => "E102"
  | opening => "E100"
  | closing => "E100"
  | note => "E103"
  | header => "E100"

theorem rank_injective {j k : Kind} (h : j.rank = k.rank) : j = k := by
  cases j <;> cases k <;> first | rfl | cases h

end Kind

/-- The line is a keyword, or begins with it and a blank. -/
def LeadsWith (keyword : String) (line : List Char) : Prop :=
  ∃ rest, line = keyword.toList ++ rest ∧ EndsWord rest

/-- The shape of the lines of a kind. -/
def Kind.Shape : Kind → List Char → Prop
  | participant, line => LeadsWith "participant" line
  | message, line => arrow <:+: line
  | opening, line => ∃ operator : Operator, LeadsWith operator.keyword line
  | closing, line => LeadsWith "end" line
  | note, line => LeadsWith "Note" line
  | header, _ => True

/-- A line is of the first kind whose shape it has. -/
def Kind.Fits (k : Kind) (line : List Char) : Prop :=
  k.Shape line ∧ ∀ j : Kind, j.rank < k.rank → ¬ j.Shape line

/-! ## Grammar -/

/-- Where a note may stand. -/
inductive Placement : List Char → Prop where
  | above : Placement "over".toList
  | leftOf {b₁ : List Char} : SomeBlanks b₁ → Placement ("left".toList ++ b₁ ++ "of".toList)
  | rightOf {b₁ : List Char} : SomeBlanks b₁ → Placement ("right".toList ++ b₁ ++ "of".toList)

/-- The lines of each kind that are statements, and what they say. A word goes as far as it can,
since what comes after it in any of these lines is a blank, a sign or nothing. -/
inductive Grammar : Kind → List Char → Statement → Prop where
  | bare {b₁ a : List Char} : SomeBlanks b₁ → Word a →
      Grammar .participant ("participant".toList ++ b₁ ++ a) (.participant (String.ofList a) none)
  | named {b₁ a b₂ b₃ n : List Char} : SomeBlanks b₁ → Word a → SomeBlanks b₂ → SomeBlanks b₃ →
      Tail n →
      Grammar .participant ("participant".toList ++ b₁ ++ a ++ b₂ ++ "as".toList ++ b₃ ++ n)
        (.participant (String.ofList a) (some (String.ofList (trim n))))
  | message {s b₁ b₂ r b₃ b₄ t : List Char} : Word s → Blanks b₁ → Blanks b₂ → Word r →
      Blanks b₃ → Blanks b₄ → Tail t →
      Grammar .message (s ++ b₁ ++ arrow ++ b₂ ++ r ++ b₃ ++ [':'] ++ b₄ ++ t)
        (.message (String.ofList s) (String.ofList r) (String.ofList t))
  | opening (operator : Operator) {rest : List Char} : EndsWord rest →
      Grammar .opening (operator.keyword.toList ++ rest)
        (.opening operator (String.ofList (trim rest)))
  | closing {rest : List Char} : EndsWord rest → Grammar .closing ("end".toList ++ rest) .closing
  | note {b₁ p b₂ a b₃ b₄ t : List Char} : SomeBlanks b₁ → Placement p → SomeBlanks b₂ → Word a →
      Blanks b₃ → Blanks b₄ → Tail t →
      Grammar .note ("Note".toList ++ b₁ ++ p ++ b₂ ++ a ++ b₃ ++ [':'] ++ b₄ ++ t)
        (.note (String.ofList a) (String.ofList t))
  | header {b₁ : List Char} : Blanks b₁ → Grammar .header ("sequenceDiagram".toList ++ b₁) .header

/-! ## Shapes -/

theorem startsWithKeyword_iff {keyword : String} {line : List Char} :
    startsWithKeyword keyword line ↔ LeadsWith keyword line := by
  simp only [startsWithKeyword, Option.isSome_iff_exists, afterKeyword_eq_some, LeadsWith]

/-- Every line is of one kind. -/
theorem existsUnique_fits (line : List Char) : ∃ k : Kind, k.Fits line ∧
    ∀ j : Kind, j.Fits line → j = k := by
  have hexists : ∃ k : Kind, k.Fits line := by
    classical
    -- The least rank of a kind whose shape the line has; every line has the last shape.
    have hex : ∃ i, ∃ k : Kind, k.rank = i ∧ k.Shape line := ⟨5, .header, rfl, trivial⟩
    obtain ⟨k, hk, hshape⟩ := Nat.find_spec hex
    refine ⟨k, hshape, fun j hj hjshape => ?_⟩
    rw [hk] at hj
    exact Nat.find_min hex hj ⟨j, rfl, hjshape⟩
  obtain ⟨k, hk⟩ := hexists
  refine ⟨k, hk, fun j hj => Kind.rank_injective ?_⟩
  have hle : ¬ j.rank < k.rank := fun h => hk.2 j h hj.1
  have hge : ¬ k.rank < j.rank := fun h => hj.2 k h hk.1
  omega

/-! ## Each kind accepts its grammar -/

theorem displayClause_eq_some {text : List Char} {name : String} :
    displayClause text = some name ↔
      ∃ b₁ b₂ n, SomeBlanks b₁ ∧ SomeBlanks b₂ ∧ Tail n ∧ name = String.ofList (trim n) ∧
        text = b₁ ++ "as".toList ++ b₂ ++ n := by
  constructor
  · intro h
    obtain ⟨afterFirst, hfirst, hthen⟩ := Option.bind_eq_some_iff.mp h
    obtain ⟨afterAs, has, hname⟩ := Option.bind_eq_some_iff.mp hthen
    obtain ⟨n, hn, hsome⟩ := Option.bind_eq_some_iff.mp hname
    split at hsome
    · cases hsome
    · next hne =>
      obtain ⟨b₁, hb₁, htext, -⟩ := afterSomeBlanks_eq_some.mp hfirst
      obtain ⟨b₂, hb₂, hafter, hstop⟩ := afterSomeBlanks_eq_some.mp hn
      refine ⟨b₁, b₂, n, hb₁, hb₂, ⟨by simpa using hne, hstop⟩, (Option.some.inj hsome).symm, ?_⟩
      rw [htext, afterLiteral_eq_some.mp has, hafter]
      simp
  · rintro ⟨b₁, b₂, n, hb₁, hb₂, ⟨hne, hstop⟩, rfl, rfl⟩
    have hfirst : afterSomeBlanks (b₁ ++ "as".toList ++ b₂ ++ n) =
        some ("as".toList ++ (b₂ ++ n)) :=
      afterSomeBlanks_eq_some.mpr ⟨b₁, hb₁, by simp, stops_cons.mpr rfl⟩
    have has : afterLiteral ['a', 's'] ("as".toList ++ (b₂ ++ n)) = some (b₂ ++ n) :=
      afterLiteral_eq_some.mpr rfl
    have hn : afterSomeBlanks (b₂ ++ n) = some n :=
      afterSomeBlanks_eq_some.mpr ⟨b₂, hb₂, rfl, hstop⟩
    refine Option.bind_eq_some_iff.mpr ⟨_, hfirst, Option.bind_eq_some_iff.mpr ⟨_, has,
      Option.bind_eq_some_iff.mpr ⟨_, hn, ?_⟩⟩⟩
    simp [hne]

theorem participant?_sound {line : List Char} {st : Statement} (h : participant? line = some st) :
    Grammar .participant line st := by
  obtain ⟨afterKey, hkey, hfirst⟩ := Option.bind_eq_some_iff.mp h
  obtain ⟨afterFirst, hblanks, hthen⟩ := Option.bind_eq_some_iff.mp hfirst
  obtain ⟨⟨aliasName, rest⟩, hword, hclause⟩ := Option.bind_eq_some_iff.mp hthen
  obtain ⟨b₁, hb₁, hb₁_eq, -⟩ := afterSomeBlanks_eq_some.mp hblanks
  obtain ⟨a, ha, rfl, ha_eq, -⟩ := scanWord_eq_some.mp hword
  have hline : line = "participant".toList ++ b₁ ++ a ++ rest := by
    rw [(afterKeyword_eq_some.mp hkey).1, hb₁_eq, ha_eq]
    simp
  -- What is left after the alias is a clause with a name, or has to be nothing.
  cases hname : displayClause rest with
  | some name =>
    simp only [hname, Option.some.injEq] at hclause
    obtain ⟨b₂, b₃, n, hb₂, hb₃, hn, rfl, rfl⟩ := displayClause_eq_some.mp hname
    rw [hline, ← hclause]
    simpa using Grammar.named hb₁ ha hb₂ hb₃ hn
  | none =>
    simp only [hname] at hclause
    split at hclause
    · next hempty =>
      obtain rfl : rest = [] := by simpa using hempty
      rw [hline, ← Option.some.inj hclause, List.append_nil]
      exact Grammar.bare hb₁ ha
    · cases hclause

/-- What comes after the alias decides whether a participant has a name to show. -/
theorem participant?_eq {b₁ a rest : List Char} (hb₁ : SomeBlanks b₁) (ha : Word a)
    (hrest : Stops isWord rest) :
    participant? ("participant".toList ++ b₁ ++ a ++ rest) =
      match displayClause rest with
      | some name => some (.participant (String.ofList a) (some name))
      | none => if rest.isEmpty then some (.participant (String.ofList a) none) else none := by
  have hkey : afterKeyword "participant" ("participant".toList ++ b₁ ++ a ++ rest) =
      some (b₁ ++ (a ++ rest)) :=
    afterKeyword_eq_some.mpr ⟨by simp, endsWord_of_someBlanks hb₁⟩
  have hblanks : afterSomeBlanks (b₁ ++ (a ++ rest)) = some (a ++ rest) :=
    afterSomeBlanks_eq_some.mpr ⟨b₁, hb₁, rfl, stops_isBlank_of_word ha⟩
  have hword : scanWord (a ++ rest) = some (String.ofList a, rest) :=
    scanWord_eq_some.mpr ⟨a, ha, rfl, rfl, hrest⟩
  unfold participant?
  rw [hkey, Option.bind_eq_bind, Option.bind_some, hblanks, Option.bind_eq_bind, Option.bind_some,
    hword]
  rfl

theorem participant?_eq_some {line : List Char} {st : Statement} :
    participant? line = some st ↔ Grammar .participant line st := by
  constructor
  · exact participant?_sound
  · rintro (⟨hb₁, ha⟩ | @⟨b₁, a, b₂, b₃, n, hb₁, ha, hb₂, hb₃, hn⟩)
    · have hclause : displayClause [] = none := rfl
      have h := participant?_eq hb₁ ha (stops_nil isWord)
      rw [hclause] at h
      simpa using h
    · have hclause : displayClause (b₂ ++ "as".toList ++ b₃ ++ n) =
          some (String.ofList (trim n)) :=
        displayClause_eq_some.mpr ⟨b₂, b₃, n, hb₂, hb₃, hn, rfl, rfl⟩
      have hstop : Stops isWord (b₂ ++ "as".toList ++ b₃ ++ n) := by
        simpa using stops_isWord_of_someBlanks hb₂
      have h := participant?_eq hb₁ ha hstop
      rw [hclause] at h
      simpa using h

/-- Blanks and a sign end a word, unless the sign is a word character. -/
theorem stops_isWord_sign {b₁ rest : List Char} {c : Char} (hb₁ : Blanks b₁)
    (hc : isWord c = false) : Stops isWord (b₁ ++ c :: rest) :=
  stops_isWord_of_blanks hb₁ (stops_cons.mpr hc)

theorem message?_eq_some {line : List Char} {st : Statement} :
    message? line = some st ↔ Grammar .message line st := by
  constructor
  · intro h
    obtain ⟨⟨sender, afterSender⟩, hsender, harrow⟩ := Option.bind_eq_some_iff.mp h
    obtain ⟨afterArrow, hliteral, hthen⟩ := Option.bind_eq_some_iff.mp harrow
    obtain ⟨⟨receiver, afterReceiver⟩, hreceiver, hcolon⟩ := Option.bind_eq_some_iff.mp hthen
    obtain ⟨text, htext, hsome⟩ := Option.bind_eq_some_iff.mp hcolon
    obtain ⟨s, hs, rfl, hs_eq, -⟩ := scanWord_eq_some.mp hsender
    obtain ⟨b₁, hb₁, hb₁_eq, -⟩ := afterBlanks_spec afterSender
    obtain ⟨b₂, hb₂, hb₂_eq, -⟩ := afterBlanks_spec afterArrow
    obtain ⟨r, hr, rfl, hr_eq, -⟩ := scanWord_eq_some.mp hreceiver
    obtain ⟨b₃, b₄, t, hb₃, hb₄, ht, rfl, rfl⟩ := textAfterColon_eq_some.mp htext
    have hline : line = s ++ b₁ ++ arrow ++ b₂ ++ r ++ b₃ ++ [':'] ++ b₄ ++ t := by
      rw [hs_eq, hb₁_eq, afterLiteral_eq_some.mp hliteral, hb₂_eq, hr_eq]
      simp
    rw [hline, ← Option.some.inj hsome]
    exact Grammar.message hs hb₁ hb₂ hr hb₃ hb₄ ht
  · intro h
    cases h with | @message s b₁ b₂ r b₃ b₄ t hs hb₁ hb₂ hr hb₃ hb₄ ht =>
    -- Each scanner gets what the one before it leaves.
    have hsender : scanWord (s ++ b₁ ++ arrow ++ b₂ ++ r ++ b₃ ++ [':'] ++ b₄ ++ t) =
        some (String.ofList s, b₁ ++ (arrow ++ (b₂ ++ (r ++ (b₃ ++ ':' :: (b₄ ++ t)))))) :=
      scanWord_eq_some.mpr ⟨s, hs, rfl, by simp, stops_isWord_sign hb₁ (by decide +kernel)⟩
    have hblanks : afterBlanks (b₁ ++ (arrow ++ (b₂ ++ (r ++ (b₃ ++ ':' :: (b₄ ++ t)))))) =
        arrow ++ (b₂ ++ (r ++ (b₃ ++ ':' :: (b₄ ++ t)))) :=
      afterBlanks_append hb₁ (stops_cons.mpr rfl)
    have hblanks' : afterBlanks (b₂ ++ (r ++ (b₃ ++ ':' :: (b₄ ++ t)))) =
        r ++ (b₃ ++ ':' :: (b₄ ++ t)) :=
      afterBlanks_append hb₂ (stops_isBlank_of_word hr)
    have hreceiver : scanWord (r ++ (b₃ ++ ':' :: (b₄ ++ t))) =
        some (String.ofList r, b₃ ++ ':' :: (b₄ ++ t)) :=
      scanWord_eq_some.mpr ⟨r, hr, rfl, rfl, stops_isWord_sign hb₃ (by decide +kernel)⟩
    have hcolon : textAfterColon (b₃ ++ ':' :: (b₄ ++ t)) = some (String.ofList t) :=
      textAfterColon_eq_some.mpr ⟨b₃, b₄, t, hb₃, hb₄, ht, rfl, rfl⟩
    refine Option.bind_eq_some_iff.mpr ⟨_, hsender, Option.bind_eq_some_iff.mpr ⟨_,
      afterLiteral_eq_some.mpr hblanks, ?_⟩⟩
    rw [hblanks']
    exact Option.bind_eq_some_iff.mpr ⟨_, hreceiver, Option.bind_eq_some_iff.mpr ⟨_, hcolon, rfl⟩⟩

theorem opening?_eq_some {operator : Operator} {line : List Char} {st : Statement} :
    opening? operator line = some st ↔
      ∃ rest, line = operator.keyword.toList ++ rest ∧ EndsWord rest ∧
        .opening operator (String.ofList (trim rest)) = st := by
  simp only [opening?, Option.map_eq_some_iff, afterKeyword_eq_some, and_assoc]

theorem afterPlacement_eq_some {text rest : List Char} :
    afterPlacement text = some rest ↔ ∃ p, Placement p ∧ text = p ++ rest := by
  constructor
  · intro h
    unfold afterPlacement at h
    split at h
    · next after hover =>
      rw [← Option.some.inj h]
      exact ⟨_, .above, afterLiteral_eq_some.mp hover⟩
    · obtain ⟨side, hside, hthen⟩ := Option.bind_eq_some_iff.mp h
      obtain ⟨afterSide, hblanks, hof⟩ := Option.bind_eq_some_iff.mp hthen
      obtain ⟨b₁, hb₁, hb₁_eq, -⟩ := afterSomeBlanks_eq_some.mp hblanks
      have hof_eq := afterLiteral_eq_some.mp hof
      rcases Option.or_eq_some_iff.mp hside with hleft | ⟨-, hright⟩
      · refine ⟨_, .leftOf hb₁, ?_⟩
        rw [afterLiteral_eq_some.mp hleft, hb₁_eq, hof_eq]
        simp
      · refine ⟨_, .rightOf hb₁, ?_⟩
        rw [afterLiteral_eq_some.mp hright, hb₁_eq, hof_eq]
        simp
  · rintro ⟨p, hp, rfl⟩
    have hof {b₁ : List Char} (hb₁ : SomeBlanks b₁) :
        afterSomeBlanks (b₁ ++ ("of".toList ++ rest)) = some ("of".toList ++ rest) :=
      afterSomeBlanks_eq_some.mpr ⟨b₁, hb₁, rfl, stops_cons.mpr rfl⟩
    have hrest : afterLiteral "of".toList ("of".toList ++ rest) = some rest :=
      afterLiteral_eq_some.mpr rfl
    cases hp with
    | above => rfl
    | leftOf hb₁ =>
      rw [List.append_assoc, List.append_assoc]
      exact Option.bind_eq_some_iff.mpr ⟨_, hof hb₁, hrest⟩
    | rightOf hb₁ =>
      rw [List.append_assoc, List.append_assoc]
      exact Option.bind_eq_some_iff.mpr ⟨_, hof hb₁, hrest⟩

/-- Placements begin with a letter. -/
theorem Placement.stops_isBlank {p rest : List Char} (hp : Placement p) :
    Stops isBlank (p ++ rest) := by
  cases hp <;> exact stops_cons.mpr rfl

theorem note?_eq_some {line : List Char} {st : Statement} :
    note? line = some st ↔ Grammar .note line st := by
  constructor
  · intro h
    obtain ⟨afterKey, hkey, hfirst⟩ := Option.bind_eq_some_iff.mp h
    obtain ⟨afterFirst, hblanks, hplace⟩ := Option.bind_eq_some_iff.mp hfirst
    obtain ⟨afterPlace, hplacement, hsecond⟩ := Option.bind_eq_some_iff.mp hplace
    obtain ⟨afterSecond, hblanks', hthen⟩ := Option.bind_eq_some_iff.mp hsecond
    obtain ⟨⟨target, afterTarget⟩, hword, hcolon⟩ := Option.bind_eq_some_iff.mp hthen
    obtain ⟨text, htext, hsome⟩ := Option.bind_eq_some_iff.mp hcolon
    obtain ⟨b₁, hb₁, hb₁_eq, -⟩ := afterSomeBlanks_eq_some.mp hblanks
    obtain ⟨p, hp, hp_eq⟩ := afterPlacement_eq_some.mp hplacement
    obtain ⟨b₂, hb₂, hb₂_eq, -⟩ := afterSomeBlanks_eq_some.mp hblanks'
    obtain ⟨a, ha, rfl, ha_eq, -⟩ := scanWord_eq_some.mp hword
    obtain ⟨b₃, b₄, t, hb₃, hb₄, ht, rfl, rfl⟩ := textAfterColon_eq_some.mp htext
    have hline : line = "Note".toList ++ b₁ ++ p ++ b₂ ++ a ++ b₃ ++ [':'] ++ b₄ ++ t := by
      rw [(afterKeyword_eq_some.mp hkey).1, hb₁_eq, hp_eq, hb₂_eq, ha_eq]
      simp
    rw [hline, ← Option.some.inj hsome]
    exact Grammar.note hb₁ hp hb₂ ha hb₃ hb₄ ht
  · intro h
    cases h with | @note b₁ p b₂ a b₃ b₄ t hb₁ hp hb₂ ha hb₃ hb₄ ht =>
    have hkey : afterKeyword "Note"
        ("Note".toList ++ b₁ ++ p ++ b₂ ++ a ++ b₃ ++ [':'] ++ b₄ ++ t) =
          some (b₁ ++ (p ++ (b₂ ++ (a ++ (b₃ ++ ':' :: (b₄ ++ t)))))) :=
      afterKeyword_eq_some.mpr ⟨by simp, endsWord_of_someBlanks hb₁⟩
    have hblanks : afterSomeBlanks (b₁ ++ (p ++ (b₂ ++ (a ++ (b₃ ++ ':' :: (b₄ ++ t)))))) =
        some (p ++ (b₂ ++ (a ++ (b₃ ++ ':' :: (b₄ ++ t))))) :=
      afterSomeBlanks_eq_some.mpr ⟨b₁, hb₁, rfl, hp.stops_isBlank⟩
    have hplace : afterPlacement (p ++ (b₂ ++ (a ++ (b₃ ++ ':' :: (b₄ ++ t))))) =
        some (b₂ ++ (a ++ (b₃ ++ ':' :: (b₄ ++ t)))) :=
      afterPlacement_eq_some.mpr ⟨p, hp, rfl⟩
    have hblanks' : afterSomeBlanks (b₂ ++ (a ++ (b₃ ++ ':' :: (b₄ ++ t)))) =
        some (a ++ (b₃ ++ ':' :: (b₄ ++ t))) :=
      afterSomeBlanks_eq_some.mpr ⟨b₂, hb₂, rfl, stops_isBlank_of_word ha⟩
    have hword : scanWord (a ++ (b₃ ++ ':' :: (b₄ ++ t))) =
        some (String.ofList a, b₃ ++ ':' :: (b₄ ++ t)) :=
      scanWord_eq_some.mpr ⟨a, ha, rfl, rfl, stops_isWord_sign hb₃ (by decide +kernel)⟩
    have hcolon : textAfterColon (b₃ ++ ':' :: (b₄ ++ t)) = some (String.ofList t) :=
      textAfterColon_eq_some.mpr ⟨b₃, b₄, t, hb₃, hb₄, ht, rfl, rfl⟩
    exact Option.bind_eq_some_iff.mpr ⟨_, hkey, Option.bind_eq_some_iff.mpr ⟨_, hblanks,
      Option.bind_eq_some_iff.mpr ⟨_, hplace, Option.bind_eq_some_iff.mpr ⟨_, hblanks',
        Option.bind_eq_some_iff.mpr ⟨_, hword, Option.bind_eq_some_iff.mpr ⟨_, hcolon, rfl⟩⟩⟩⟩⟩⟩

theorem header?_eq_some {line : List Char} {st : Statement} :
    header? line = some st ↔ Grammar .header line st := by
  constructor
  · intro h
    obtain ⟨rest, hkey, hrest⟩ := Option.bind_eq_some_iff.mp h
    obtain ⟨b₁, hb₁, hb₁_eq, -⟩ := afterBlanks_spec rest
    split at hrest
    · next hempty =>
      have hnil : afterBlanks rest = [] := by simpa using hempty
      rw [hnil, List.append_nil] at hb₁_eq
      rw [← Option.some.inj hrest, (afterKeyword_eq_some.mp hkey).1, hb₁_eq]
      exact Grammar.header hb₁
    · cases hrest
  · intro h
    cases h with | @header b₁ hb₁ =>
    have hkey : afterKeyword "sequenceDiagram" ("sequenceDiagram".toList ++ b₁) = some b₁ :=
      afterKeyword_eq_some.mpr ⟨rfl, fun c hc => hb₁ c (List.mem_of_mem_head? hc)⟩
    have hblanks : afterBlanks b₁ = [] := by
      simpa using afterBlanks_append hb₁ (stops_nil isBlank)
    refine Option.bind_eq_some_iff.mpr ⟨_, hkey, ?_⟩
    rw [hblanks]
    rfl

/-! ## Lines -/

/-- The reader of the lines of a kind; lines of the fourth kind need none. -/
def Kind.read? : Kind → List Char → Option Statement
  | participant, line => participant? line
  | message, line => message? line
  | opening, line => (opening? .alt line).or (opening? .loop line)
  | closing, _ => some .closing
  | note, line => note? line
  | header, line => header? line

/-- The trouble of a line of a kind that breaks its grammar. -/
def Kind.trouble : Kind → Trouble
  | participant => .malformedParticipant
  | message => .malformedMessage
  | note => .malformedNote
  | opening | closing | header => .unrecognizedLine

theorem Kind.code_trouble (k : Kind) : k.trouble.code = k.code := by cases k <;> rfl

/-- A line that leads with the keyword of an operator is an opening. -/
theorem isSome_opening?_iff (operator : Operator) {line : List Char} :
    (opening? operator line).isSome ↔ LeadsWith operator.keyword line := by
  simp [opening?, ← startsWithKeyword_iff, startsWithKeyword]

/-- Reading a line is deciding its kind and then reading it as one of that kind. -/
theorem ofLine_of_fits {k : Kind} {line : List Char} (h : k.Fits line) :
    Statement.ofLine line = (k.read? line).elim (.error k.trouble) .ok := by
  obtain ⟨hshape, hfirst⟩ := h
  have hno {keyword : String} (hlead : ¬ LeadsWith keyword line) :
      ¬ startsWithKeyword keyword line = true := mt startsWithKeyword_iff.mp hlead
  -- The tests stand in the order of the kinds: those before `k` fail, that of `k` succeeds.
  unfold Statement.ofLine
  cases k with
  | participant => rw [if_pos (startsWithKeyword_iff.mpr hshape)]; rfl
  | message =>
    rw [if_neg (hno (hfirst .participant (by decide))), if_pos (hasArrow_iff.mpr hshape)]
    rfl
  | opening =>
    rw [if_neg (hno (hfirst .participant (by decide))),
      if_neg (mt hasArrow_iff.mp (hfirst .message (by decide)))]
    by_cases halt : LeadsWith Operator.alt.keyword line
    · obtain ⟨st, hst⟩ := Option.isSome_iff_exists.mp ((isSome_opening?_iff .alt).mpr halt)
      rw [if_pos (startsWithKeyword_iff.mpr halt), Kind.read?, hst]
      rfl
    · -- Not `alt`, so that the shape is that of `loop`.
      have hnone : opening? .alt line = none :=
        Option.not_isSome_iff_eq_none.mp (mt (isSome_opening?_iff .alt).mp halt)
      have hloop : LeadsWith Operator.loop.keyword line := by
        obtain ⟨operator, hlead⟩ := hshape
        cases operator with
        | alt => exact absurd hlead halt
        | loop => exact hlead
      rw [if_neg (hno halt), if_pos (startsWithKeyword_iff.mpr hloop), Kind.read?, hnone]
      rfl
  | closing =>
    have hopening operator := hno fun h => hfirst .opening (by decide) ⟨operator, h⟩
    rw [if_neg (hno (hfirst .participant (by decide))),
      if_neg (mt hasArrow_iff.mp (hfirst .message (by decide))),
      if_neg (hopening .alt), if_neg (hopening .loop), if_pos (startsWithKeyword_iff.mpr hshape)]
    rfl
  | note =>
    have hopening operator := hno fun h => hfirst .opening (by decide) ⟨operator, h⟩
    rw [if_neg (hno (hfirst .participant (by decide))),
      if_neg (mt hasArrow_iff.mp (hfirst .message (by decide))),
      if_neg (hopening .alt), if_neg (hopening .loop),
      if_neg (hno (hfirst .closing (by decide))), if_pos (startsWithKeyword_iff.mpr hshape)]
    rfl
  | header =>
    have hopening operator := hno fun h => hfirst .opening (by decide) ⟨operator, h⟩
    rw [if_neg (hno (hfirst .participant (by decide))),
      if_neg (mt hasArrow_iff.mp (hfirst .message (by decide))),
      if_neg (hopening .alt), if_neg (hopening .loop),
      if_neg (hno (hfirst .closing (by decide))), if_neg (hno (hfirst .note (by decide)))]
    rfl

theorem read?_eq_some {k : Kind} {line : List Char} {st : Statement} (h : k.Shape line) :
    k.read? line = some st ↔ Grammar k line st := by
  cases k with
  | participant => exact participant?_eq_some
  | message => exact message?_eq_some
  | opening =>
    constructor
    · intro hread
      rcases Option.or_eq_some_iff.mp hread with hop | ⟨-, hop⟩ <;>
        obtain ⟨rest, rfl, hrest, rfl⟩ := opening?_eq_some.mp hop <;>
        exact .opening _ hrest
    · intro hgrammar
      cases hgrammar with | @opening operator rest hrest =>
      have hop : opening? operator (operator.keyword.toList ++ rest) =
          some (.opening operator (String.ofList (trim rest))) :=
        opening?_eq_some.mpr ⟨rest, rfl, hrest, rfl⟩
      cases operator with
      | alt => exact Option.or_eq_some_iff.mpr (.inl hop)
      | loop => exact Option.or_eq_some_iff.mpr (.inr ⟨rfl, hop⟩)
  | closing =>
    obtain ⟨rest, rfl, hrest⟩ := h
    constructor
    · rintro ⟨⟩
      exact .closing hrest
    · rintro ⟨⟩
      rfl
  | note => exact note?_eq_some
  | header => exact header?_eq_some

/-- A line that fits a kind is the statement that the grammar of the kind makes it. -/
theorem ofLine_eq_ok_iff {k : Kind} {line : List Char} {st : Statement} (h : k.Fits line) :
    Statement.ofLine line = .ok st ↔ Grammar k line st := by
  rw [ofLine_of_fits h, ← read?_eq_some h.1]
  cases k.read? line <;> simp

/-- A line that breaks the grammar of its kind is in the trouble of this kind. -/
theorem ofLine_eq_error {k : Kind} {line : List Char} (h : k.Fits line)
    (hst : ∀ st, ¬ Grammar k line st) : Statement.ofLine line = .error k.trouble := by
  have hnone : k.read? line = none :=
    Option.eq_none_iff_forall_ne_some.mpr fun st hread => hst st ((read?_eq_some h.1).mp hread)
  rw [ofLine_of_fits h, hnone]
  rfl

/-- A trimmed line has no blanks at its end. -/
theorem eq_nil_of_trimmed_append {line b₁ : List Char} (hb₁ : Blanks b₁)
    (h : Trimmed (line ++ b₁)) : b₁ = [] := by
  rcases List.eq_nil_or_concat b₁ with rfl | ⟨b₂, c, rfl⟩
  · rfl
  · rw [List.concat_eq_append] at hb₁ h
    have hc : isBlank c := hb₁ c (by simp)
    have hwhite := h.2 c (by simp)
    rw [isWhite_of_isBlank hc] at hwhite
    cases hwhite

/-- No kind but the last has headers. -/
theorem Grammar.kind_header {k : Kind} {line : List Char} (h : Grammar k line .header) :
    k = .header := by
  cases h
  rfl

/-- Of the trimmed lines only one is a header. -/
theorem ofLine_eq_header_iff {line : List Char} (h : Trimmed line) :
    Statement.ofLine line = .ok .header ↔ line = "sequenceDiagram".toList := by
  constructor
  · intro hline
    obtain ⟨k, hk, -⟩ := existsUnique_fits line
    have hgrammar := (ofLine_eq_ok_iff hk).mp hline
    obtain rfl := hgrammar.kind_header
    cases hgrammar with | header hb₁ =>
    rw [eq_nil_of_trimmed_append hb₁ h, List.append_nil]
  · rintro rfl
    decide +kernel

/-- Every line is of exactly one kind, the first whose shape it has. It is read as the statement
that the grammar of this kind gives it, and with the code of this kind as trouble if the grammar
gives none. Of the trimmed lines only `sequenceDiagram` is a header. -/
theorem ofLine_iff_grammar (line : List Char) :
    (∃ k : Kind, k.Fits line ∧ ∀ j : Kind, j.Fits line → j = k) ∧
      (∀ k : Kind, k.Fits line →
        (∀ st, Statement.ofLine line = .ok st ↔ Grammar k line st) ∧
          ((∀ st, ¬ Grammar k line st) →
            ∃ t, Statement.ofLine line = .error t ∧ t.code = k.code)) ∧
      (trim line = line →
        (Statement.ofLine line = .ok .header ↔ line = "sequenceDiagram".toList)) := by
  refine ⟨existsUnique_fits line, ?_, fun h => ofLine_eq_header_iff (trim_eq_self_iff.mp h)⟩
  intro k hk
  exact ⟨fun st => ofLine_eq_ok_iff hk, fun h => ⟨k.trouble, ofLine_eq_error hk h, k.code_trouble⟩⟩

/-- Keywords may name participants, since the line does not lead with them. -/
theorem ofLine_keywords_as_names :
    (Kind.message.Fits "end->>loop : alt x->>y".toList ∧
        Statement.ofLine "end->>loop : alt x->>y".toList =
          .ok (.message "end" "loop" "alt x->>y")) ∧
      (trim "sequenceDiagram".toList = "sequenceDiagram".toList ∧
        Statement.ofLine "sequenceDiagram".toList = .ok .header) := by
  have hfits : Kind.message.Fits "end->>loop : alt x->>y".toList := by
    refine ⟨⟨"end".toList, "loop : alt x->>y".toList, rfl⟩, fun j hj => ?_⟩
    obtain rfl : j = .participant := Kind.rank_injective (Nat.lt_one_iff.mp hj)
    exact mt startsWithKeyword_iff.mpr (by decide)
  have hgrammar : Grammar .message "end->>loop : alt x->>y".toList
      (.message "end" "loop" "alt x->>y") :=
    @Grammar.message "end".toList [] [] "loop".toList [' '] [' '] "alt x->>y".toList
      (by decide +kernel) blanks_nil blanks_nil (by decide +kernel)
      (by simp [Blanks, isBlank]) (by simp [Blanks, isBlank]) ⟨by decide, stops_cons.mpr rfl⟩
  have htrim : trim "sequenceDiagram".toList = "sequenceDiagram".toList := by decide
  exact ⟨⟨hfits, (((ofLine_iff_grammar _).2.1 _ hfits).1 _).mpr hgrammar⟩, htrim,
    ((ofLine_iff_grammar _).2.2 htrim).mpr rfl⟩

end SequenceXmi.Mermaid
