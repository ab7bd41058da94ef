import SequenceXmi.Proofs.Mermaid.Matching
import SequenceXmi.Proofs.Mermaid.Routing
import SequenceXmi.Proofs.Text.Places

/-! # The brackets of a text

A bracket is a line that opens or ends a fragment. Looking at nothing but the brackets of a text,
and at their order, one can say which of them are unbalanced:

* ends that have no fragment to end (`unmatchedEnds`);
* openings whose fragments nothing ends (`unclosedOpenings`);
* with flat nesting, openings inside a fragment, which they close (`replacements`).

With flat nesting it is the bracket before that decides, with stacked nesting what matches. Each of
the three is compared here with the stack of open brackets, `openBrackets`, by adding one bracket at
the end. -/

namespace SequenceXmi.Mermaid

open Text
open Statement (isOpening isClosing)

/-! ## Brackets -/

/-- A line that opens or ends a fragment. -/
structure Bracket where
  line : Line
  /-- What the line says. -/
  statement : Statement
  reads : statement? line = some statement
  opensOrEnds : isOpening statement ∨ isClosing statement

namespace Bracket

/-- Whether the line opens a fragment. -/
def opens (b : Bracket) : Bool := isOpening b.statement

/-- Whether the line ends a fragment. -/
def ends (b : Bracket) : Bool := isClosing b.statement

/-- A line as a bracket, if it is one. -/
def ofLine? (line : Line) : Option Bracket :=
  match h : statement? line with
  | none => none
  | some st => if hst : isOpening st ∨ isClosing st then some ⟨line, st, h, hst⟩ else none

theorem ends_of_opens {b : Bracket} (h : b.opens) : b.ends = false := isClosing_of_isOpening h

theorem ends_of_not_opens {b : Bracket} (h : b.opens = false) : b.ends := by
  have hor := b.opensOrEnds
  rw [show isOpening b.statement = false from h] at hor
  simpa [ends] using hor

theorem ofLine?_of_statement? {line : Line} {st : Statement} (h : statement? line = some st)
    (hst : isOpening st ∨ isClosing st) : ofLine? line = some ⟨line, st, h, hst⟩ := by
  unfold ofLine?
  split
  · next hnone =>
    rw [hnone] at h
    cases h
  · next st' hst' =>
    obtain rfl : st' = st := Option.some.inj (hst'.symm.trans h)
    rw [dif_pos hst]

/-- What is said in a line that is no bracket. -/
theorem not_opensOrEnds {line : Line} {st : Statement} (h : ofLine? line = none)
    (hst : statement? line = some st) : ¬ (isOpening st ∨ isClosing st) := by
  intro hopensOrEnds
  rw [ofLine?_of_statement? hst hopensOrEnds] at h
  cases h

/-- A bracket is neither blank nor a comment. -/
theorem isIgnorable_line (b : Bracket) : b.line.isIgnorable = false :=
  (statement?_eq_some.mp b.reads).1

theorem line_of_ofLine? {line : Line} {b : Bracket} (h : ofLine? line = some b) :
    b.line = line := by
  unfold ofLine? at h
  split at h
  · cases h
  · split at h
    · rw [← Option.some.inj h]
    · cases h

/-- A line is no bracket, or an opening, or an end. -/
theorem ofLine?_cases (line : Line) :
    ofLine? line = none ∨
      (∃ b operator guard, ofLine? line = some b ∧ b.line = line ∧ b.opens ∧
        statement? line = some (.opening operator guard)) ∨
      ∃ b, ofLine? line = some b ∧ b.line = line ∧ b.opens = false ∧
        statement? line = some .closing := by
  cases hb : ofLine? line with
  | none => exact .inl rfl
  | some b =>
    have hline := line_of_ofLine? hb
    have hreads := b.reads
    rw [hline] at hreads
    have hopensOrEnds := b.opensOrEnds
    cases hst : b.statement with
    | opening operator guard =>
      have hopens : b.opens := by rw [opens, hst]; rfl
      exact .inr (.inl ⟨b, operator, guard, rfl, hline, hopens, by rw [hreads, hst]⟩)
    | closing =>
      have hopens : b.opens = false := by rw [opens, hst]; rfl
      exact .inr (.inr ⟨b, rfl, hline, hopens, by rw [hreads, hst]⟩)
    | header | participant | message | note =>
      rw [hst] at hopensOrEnds
      simp [isOpening, isClosing] at hopensOrEnds

end Bracket

/-- The statements of brackets. -/
def bracketStatements (bs : List Bracket) : List Statement := bs.map (·.statement)

/-- The brackets of a text, in order. -/
def brackets (source : String) : List Bracket := (lines source).filterMap Bracket.ofLine?

/-- The brackets at some positions. -/
def bracketsAt (bs : List Bracket) (positions : List Nat) : List Bracket :=
  positions.filterMap (bs[·]?)

/-! ## Unbalanced brackets -/

/-- Whether the bracket before a position opens a fragment. -/
def followsOpening (ss : List Statement) : Nat → Bool
  | 0 => false
  | i + 1 => opensAt ss i

/-- Whether there is an end at a position that has no fragment to end. With flat nesting an end or
nothing comes before it; with stacked nesting it matches no opening. -/
def endsNothing : Nesting → List Statement → Nat → Bool
  | .flat, ss, i => endsAt ss i && !followsOpening ss i
  | .stacked, ss, i => endsAt ss i && !decide (∃ p < i, Matches ss p i)

/-- Whether there is an opening at a position whose fragment is open to the end. With flat nesting
it is the last bracket; with stacked nesting no end matches it. -/
def staysOpen : Nesting → List Statement → Nat → Bool
  | .flat, ss, i => opensAt ss i && i + 1 == ss.length
  | .stacked, ss, i => opensAt ss i && !decide (∃ q < ss.length, Matches ss i q)

/-- The ends that have no fragment to end. -/
def unmatchedEnds (nesting : Nesting) (bs : List Bracket) : List Bracket :=
  bracketsAt bs ((List.range bs.length).filter (endsNothing nesting (bracketStatements bs)))

/-- The openings whose fragments are open to the end. -/
def unclosedOpenings (nesting : Nesting) (bs : List Bracket) : List Bracket :=
  bracketsAt bs ((List.range bs.length).filter (staysOpen nesting (bracketStatements bs)))

/-- The openings that close a fragment, each behind the opening of this fragment: with flat nesting
those that come right after another one. -/
def replacements : Nesting → List Bracket → List (Bracket × Bracket)
  | .flat, bs => (bs.zip bs.tail).filter fun (previous, b) => previous.opens && b.opens
  | .stacked, _ => []

/-- The brackets whose fragments are open after all of them, the innermost one first. -/
def openBrackets (nesting : Nesting) (bs : List Bracket) : List Bracket :=
  bracketsAt bs (openStack nesting (bracketStatements bs))

/-! ## One more bracket -/

section

variable {nesting : Nesting} {bs : List Bracket} {b : Bracket} {positions : List Nat}

@[simp] theorem length_bracketStatements : (bracketStatements bs).length = bs.length :=
  List.length_map _

theorem bracketStatements_concat :
    bracketStatements (bs ++ [b]) = bracketStatements bs ++ [b.statement] :=
  List.map_append

theorem lt_of_mem_openStack {p : Nat} (h : p ∈ openStack nesting (bracketStatements bs)) :
    p < bs.length := by
  simpa using (of_mem_openStack h).1

theorem bracketsAt_concat_of_lt (h : ∀ p ∈ positions, p < bs.length) :
    bracketsAt (bs ++ [b]) positions = bracketsAt bs positions := by
  apply List.filterMap_congr
  intro p hp
  exact List.getElem?_append_left (h p hp)

theorem bracketsAt_length_cons :
    bracketsAt (bs ++ [b]) (bs.length :: positions) = b :: bracketsAt (bs ++ [b]) positions := by
  simp [bracketsAt]

theorem length_bracketsAt (h : ∀ p ∈ positions, p < bs.length) :
    (bracketsAt bs positions).length = positions.length := by
  rw [bracketsAt, List.length_filterMap_eq_countP, List.countP_eq_length]
  intro p hp
  simpa using h p hp

theorem bracketsAt_tail (h : ∀ p ∈ positions, p < bs.length) :
    bracketsAt bs positions.tail = (bracketsAt bs positions).tail := by
  cases positions with
  | nil => rfl
  | cons p rest =>
    have hp : p < bs.length := h p List.mem_cons_self
    rw [bracketsAt, bracketsAt, List.tail_cons,
      List.filterMap_cons_some (List.getElem?_eq_getElem hp), List.tail_cons]

/-- A bracket goes on the stack, or takes one off it. -/
theorem openBrackets_concat :
    openBrackets nesting (bs ++ [b]) =
      if b.opens then
        b :: match nesting with
          | .flat => (openBrackets nesting bs).tail
          | .stacked => openBrackets nesting bs
      else (openBrackets nesting bs).tail := by
  have hlt : ∀ p ∈ openStack nesting (bracketStatements bs), p < bs.length :=
    fun p => lt_of_mem_openStack
  have htail : ∀ p ∈ (openStack nesting (bracketStatements bs)).tail, p < bs.length :=
    fun p hp => hlt p (List.mem_of_mem_tail hp)
  unfold openBrackets
  rw [bracketStatements_concat, openStack_concat, length_bracketStatements]
  unfold stackStep
  by_cases hopen : b.opens
  · rw [if_pos (show isOpening b.statement from hopen), if_pos hopen]
    cases nesting with
    | flat =>
      rw [bracketsAt_length_cons, bracketsAt_concat_of_lt htail]
      exact congrArg (b :: ·) (bracketsAt_tail hlt)
    | stacked => rw [bracketsAt_length_cons, bracketsAt_concat_of_lt hlt]
  · have hends : isClosing b.statement := Bracket.ends_of_not_opens (by simpa using hopen)
    rw [if_neg (show ¬ isOpening b.statement = true from hopen), if_neg hopen, if_pos hends,
      bracketsAt_concat_of_lt htail, bracketsAt_tail hlt]

theorem openBrackets_eq_nil_iff :
    openBrackets nesting bs = [] ↔ openStack nesting (bracketStatements bs) = [] := by
  rw [← List.length_eq_zero_iff, openBrackets, length_bracketsAt fun p => lt_of_mem_openStack,
    List.length_eq_zero_iff]

/-! ### Flat nesting -/

/-- With flat nesting the last bracket alone is open, if it is an opening. -/
theorem openBrackets_flat_concat :
    openBrackets .flat (bs ++ [b]) = if b.opens then [b] else [] := by
  have hone : (openBrackets .flat bs).length ≤ 1 := by
    rw [openBrackets, length_bracketsAt fun p => lt_of_mem_openStack, openStack_flat]
    cases current (bracketStatements bs) <;> simp
  have htail : (openBrackets .flat bs).tail = [] := by
    rw [← List.length_eq_zero_iff, List.length_tail]
    omega
  rw [openBrackets_concat, htail]

theorem length_openBrackets_flat : (openBrackets .flat bs).length ≤ 1 := by
  induction bs using List.reverseRecOn with
  | nil => exact Nat.zero_le 1
  | append_singleton bs b _ =>
    rw [openBrackets_flat_concat]
    split <;> simp

/-- The bracket before the end of all brackets opens a fragment if and only if one is open. -/
theorem followsOpening_length :
    followsOpening (bracketStatements (bs ++ [b])) bs.length =
      !(openBrackets .flat bs).isEmpty := by
  induction bs using List.reverseRecOn with
  | nil => rfl
  | append_singleton bs last _ =>
    have hlast : followsOpening (bracketStatements (bs ++ [last] ++ [b])) (bs ++ [last]).length =
        last.opens := by
      rw [List.length_append, List.length_singleton, followsOpening, bracketStatements_concat,
        opensAt_concat_of_lt (by simp), bracketStatements_concat, ← length_bracketStatements,
        opensAt_concat_length]
      rfl
    rw [hlast, openBrackets_flat_concat]
    cases last.opens <;> rfl

theorem followsOpening_concat_of_le {st : Statement} {ss : List Statement} {i : Nat}
    (hi : i ≤ ss.length) : followsOpening (ss ++ [st]) i = followsOpening ss i := by
  cases i with
  | zero => rfl
  | succ i => exact opensAt_concat_of_lt hi

/-- The pairs of neighbours get one more pair. -/
theorem zip_tail_concat {α : Type} (xs : List α) (x : α) :
    (xs ++ [x]).zip (xs ++ [x]).tail = xs.zip xs.tail ++ (xs.getLast?.map (·, x)).toList := by
  induction xs with
  | nil => rfl
  | cons y xs ih =>
    cases xs with
    | nil => rfl
    | cons z xs =>
      rw [List.getLast?_cons_cons]
      show (y, z) :: ((z :: xs) ++ [x]).zip ((z :: xs) ++ [x]).tail = _
      rw [ih]
      rfl

theorem replacements_flat_concat :
    replacements .flat (bs ++ [b]) =
      replacements .flat bs ++ if b.opens then (openBrackets .flat bs).map (·, b) else [] := by
  have hnew : ((bs.getLast?.map (·, b)).toList.filter fun (previous, b) =>
      previous.opens && b.opens) =
        if b.opens then (openBrackets .flat bs).map (·, b) else [] := by
    induction bs using List.reverseRecOn with
    | nil => cases b.opens <;> rfl
    | append_singleton bs last _ =>
      rw [List.getLast?_concat, openBrackets_flat_concat]
      by_cases hlast : last.opens <;> by_cases hopen : b.opens <;> simp [hlast, hopen]
  simp only [replacements]
  rw [zip_tail_concat, List.filter_append, hnew]

/-! ### Both ways of nesting -/

/-- An end closes no fragment but its own. -/
theorem replacements_concat_of_not_opens (h : b.opens = false) :
    replacements nesting (bs ++ [b]) = replacements nesting bs := by
  cases nesting with
  | flat =>
    rw [replacements_flat_concat, h]
    simp
  | stacked => rfl

theorem filter_range_succ {n : Nat} {P Q : Nat → Bool} (h : ∀ i < n, Q i = P i) :
    (List.range (n + 1)).filter Q = (List.range n).filter P ++ if Q n then [n] else [] := by
  have hold : (List.range n).filter Q = (List.range n).filter P :=
    List.filter_congr fun i hi => h i (List.mem_range.mp hi)
  rw [List.range_succ, List.filter_append, hold]
  by_cases hn : Q n <;> simp [hn]

/-- One more bracket, which has a property or not, where the others keep it. -/
theorem bracketsAt_filter_concat {P Q : Nat → Bool} (h : ∀ i < bs.length, Q i = P i) :
    bracketsAt (bs ++ [b]) ((List.range (bs ++ [b]).length).filter Q) =
      bracketsAt bs ((List.range bs.length).filter P) ++ if Q bs.length then [b] else [] := by
  have hlt : ∀ p ∈ (List.range bs.length).filter P, p < bs.length := fun p hp =>
    List.mem_range.mp (List.mem_of_mem_filter hp)
  rw [List.length_append, List.length_singleton, filter_range_succ h]
  have hold := bracketsAt_concat_of_lt (b := b) hlt
  unfold bracketsAt at hold ⊢
  rw [List.filterMap_append, hold]
  cases Q bs.length <;> simp

/-- A new end has no fragment to end if and only if no fragment is open. -/
theorem endsNothing_length :
    endsNothing nesting (bracketStatements (bs ++ [b])) bs.length =
      (b.ends && (openBrackets nesting bs).isEmpty) := by
  have hends : endsAt (bracketStatements (bs ++ [b])) bs.length = b.ends := by
    rw [bracketStatements_concat, ← length_bracketStatements, endsAt_concat_length]
    rfl
  cases nesting with
  | flat =>
    rw [endsNothing, hends, followsOpening_length, Bool.not_not]
  | stacked =>
    rw [endsNothing, hends]
    by_cases hclose : b.ends
    · have hst : isClosing b.statement := hclose
      have hiff := exists_matches_concat_iff (bracketStatements bs) hst
      rw [← bracketStatements_concat, length_bracketStatements, ne_eq,
        ← openBrackets_eq_nil_iff] at hiff
      rw [hclose, Bool.true_and, Bool.true_and, Bool.eq_iff_iff, List.isEmpty_iff]
      simp [hiff]
    · simp [hclose]

theorem endsNothing_concat_of_lt {i : Nat} (hi : i < bs.length) :
    endsNothing nesting (bracketStatements (bs ++ [b])) i =
      endsNothing nesting (bracketStatements bs) i := by
  have hlt : i < (bracketStatements bs).length := by simpa using hi
  rw [bracketStatements_concat]
  cases nesting with
  | flat =>
    rw [endsNothing, endsNothing, endsAt_concat_of_lt hlt,
      followsOpening_concat_of_le (Nat.le_of_lt hlt)]
  | stacked =>
    rw [endsNothing, endsNothing, endsAt_concat_of_lt hlt]
    simp only [matches_concat_of_lt hlt]

theorem unmatchedEnds_concat :
    unmatchedEnds nesting (bs ++ [b]) =
      unmatchedEnds nesting bs ++
        if b.ends && (openBrackets nesting bs).isEmpty then [b] else [] := by
  unfold unmatchedEnds
  rw [bracketsAt_filter_concat fun i hi => endsNothing_concat_of_lt hi, endsNothing_length]

/-- The openings that stay open are on the stack, the first one at the bottom. -/
theorem unclosedOpenings_eq : unclosedOpenings nesting bs = (openBrackets nesting bs).reverse := by
  cases nesting with
  | flat =>
    induction bs using List.reverseRecOn with
    | nil => rfl
    | append_singleton bs b _ =>
      unfold unclosedOpenings
      -- Only the last bracket can stay open.
      rw [openBrackets_flat_concat, bracketsAt_filter_concat (P := fun _ => false)]
      · rw [staysOpen, bracketStatements_concat, ← length_bracketStatements, opensAt_concat_length]
        by_cases hopen : b.opens
        · have hst : isOpening b.statement = true := hopen
          simp [hopen, hst, bracketsAt]
        · have hst : isOpening b.statement = false := by simpa [Bracket.opens] using hopen
          simp [hopen, hst, bracketsAt]
      · intro i hi
        have hne : (i + 1 == (bracketStatements (bs ++ [b])).length) = false := by
          simp
          omega
        rw [staysOpen, hne, Bool.and_false]
  | stacked =>
    have hfilter : (List.range bs.length).filter (staysOpen .stacked (bracketStatements bs)) =
        (openStack .stacked (bracketStatements bs)).reverse := by
      rw [(openStack_stacked _).1, unclosed, List.filter_reverse, List.reverse_reverse,
        length_bracketStatements]
      refine List.filter_congr fun i hi => ?_
      have hlt : i < (bracketStatements bs).length := by simpa using List.mem_range.mp hi
      rw [staysOpen]
      by_cases hopens : opensAt (bracketStatements bs) i
      · rw [hopens, Bool.true_and, Bool.true_and, Bool.eq_iff_iff, isSome_level_iff hlt hopens]
        simp
      · simp [hopens]
    rw [unclosedOpenings, hfilter, openBrackets, bracketsAt, bracketsAt, List.filterMap_reverse]

/-! ## Numbers of brackets -/

/-- What opens is ended, closed by another opening, or stays open. -/
theorem count_brackets (nesting : Nesting) (bs : List Bracket) :
    bs.countP (·.opens) + (unmatchedEnds nesting bs).length =
      bs.countP (·.ends) + (unclosedOpenings nesting bs).length +
        (replacements nesting bs).length := by
  rw [unclosedOpenings_eq, List.length_reverse]
  induction bs using List.reverseRecOn with
  | nil => cases nesting <;> rfl
  | append_singleton bs b ih =>
    rw [unmatchedEnds_concat, openBrackets_concat, List.countP_append, List.countP_append,
      List.length_append]
    by_cases hopen : b.opens
    · have hends : b.ends = false := Bracket.ends_of_opens hopen
      cases nesting with
      | flat =>
        have hone : (openBrackets .flat bs).length ≤ 1 := length_openBrackets_flat
        rw [replacements_flat_concat]
        simp [hopen, hends]
        omega
      | stacked =>
        simp [hopen, hends, replacements] at ih ⊢
        omega
    · have hends : b.ends := Bracket.ends_of_not_opens (by simpa using hopen)
      rw [replacements_concat_of_not_opens (by simpa using hopen)]
      -- An end takes one off the stack, or is unmatched.
      cases hstack : openBrackets nesting bs with
      | nil =>
        simp [hopen, hends, hstack] at ih ⊢
        omega
      | cons first outer =>
        simp [hopen, hends, hstack] at ih ⊢
        omega

end

/-! ## Where brackets stand -/

section Places

variable {nesting : Nesting} {bs : List Bracket}

/-- Brackets at ascending positions are in the order of all brackets. -/
theorem bracketsAt_sublist_of_range (P : Nat → Bool) :
    (bracketsAt bs ((List.range bs.length).filter P)).Sublist bs := by
  have hall : bracketsAt bs (List.range bs.length) = bs := by
    induction bs using List.reverseRecOn with
    | nil => rfl
    | append_singleton bs b ih =>
      have hlt : ∀ p ∈ List.range bs.length, p < bs.length := fun p hp => List.mem_range.mp hp
      have hrange : bracketsAt (bs ++ [b]) (List.range bs.length) = bs := by
        rw [bracketsAt_concat_of_lt hlt, ih]
      rw [List.length_append, List.length_singleton, List.range_succ]
      unfold bracketsAt at hrange ⊢
      rw [List.filterMap_append, hrange]
      simp
  have hsublist : (bracketsAt bs ((List.range bs.length).filter P)).Sublist
      (bracketsAt bs (List.range bs.length)) := List.filter_sublist.filterMap _
  rwa [hall] at hsublist

theorem unmatchedEnds_sublist : (unmatchedEnds nesting bs).Sublist bs :=
  bracketsAt_sublist_of_range _

theorem unclosedOpenings_sublist : (unclosedOpenings nesting bs).Sublist bs :=
  bracketsAt_sublist_of_range _

/-- The lines of the brackets are lines of the text, in order. -/
theorem lines_brackets_sublist (source : String) :
    ((brackets source).map (·.line)).Sublist (lines source) := by
  unfold brackets
  induction lines source with
  | nil => exact List.Sublist.refl _
  | cons line ls ih =>
    cases hb : Bracket.ofLine? line with
    | none =>
      rw [List.filterMap_cons_none hb]
      exact ih.cons line
    | some b =>
      rw [List.filterMap_cons_some hb, List.map_cons, Bracket.line_of_ofLine? hb]
      exact ih.cons_cons line

/-- A bracket ends before the next one begins. -/
theorem pairwise_brackets (source : String) :
    (brackets source).Pairwise fun a b => a.line.span.stop < b.line.span.start :=
  List.pairwise_map.mp ((pairwise_lines source).sublist (lines_brackets_sublist source))

/-- Neighbours in a list whose items are in an order. -/
theorem of_mem_zip_tail {α : Type} {R : α → α → Prop} {xs : List α} (h : xs.Pairwise R)
    {pair : α × α} (hpair : pair ∈ xs.zip xs.tail) :
    pair.1 ∈ xs ∧ pair.2 ∈ xs ∧ R pair.1 pair.2 := by
  induction h with
  | nil => cases hpair
  | @cons x xs hx _ ih =>
    cases xs with
    | nil => cases hpair
    | cons y ys =>
      rcases List.mem_cons.mp hpair with rfl | hrest
      · exact ⟨List.mem_cons_self, by simp, hx y List.mem_cons_self⟩
      · obtain ⟨hfirst, hsecond, hR⟩ := ih hrest
        exact ⟨List.mem_cons_of_mem x hfirst, List.mem_cons_of_mem x hsecond, hR⟩

/-- An opening that closes a fragment stands behind the opening of this fragment. -/
theorem of_mem_replacements {source : String} {pair : Bracket × Bracket}
    (h : pair ∈ replacements nesting (brackets source)) :
    pair.1 ∈ brackets source ∧ pair.2 ∈ brackets source ∧
      pair.1.line.span.stop < pair.2.line.span.start := by
  cases nesting with
  | flat => exact of_mem_zip_tail (pairwise_brackets source) (List.mem_of_mem_filter h)
  | stacked => cases h

end Places

end SequenceXmi.Mermaid
