import Mathlib.Data.List.Induction
import SequenceXmi.Mermaid.Reading

/-! # Which fragment a statement belongs to

Openings and ends of fragments are brackets. For each position in a list of statements, `owner` says
by counting, and without a stack, to which opening the position belongs. Reading keeps a stack
instead; `openStack` is this stack with positions in it, and nothing else of what is read.

Main result: `owner_eq_head?_openStack`. With stacked nesting it rests on the levels of the open
fragments: an opening is at level `k` if `k` others are open above it, and the levels of the stack
are always `0, 1, 2, …` from the top. -/

namespace SequenceXmi.Mermaid

/-! ## Brackets -/

/-- Whether a statement opens a fragment. -/
def Statement.isOpening : Statement → Bool
  | .opening .. => true
  | _ => false

/-- Whether a statement ends a fragment. -/
def Statement.isClosing : Statement → Bool
  | .closing => true
  | _ => false

open Statement (isOpening isClosing)

/-- Whether a fragment opens at a position. -/
def opensAt (ss : List Statement) (p : Nat) : Bool := ss[p]?.any isOpening

/-- Whether a fragment ends at a position. -/
def endsAt (ss : List Statement) (p : Nat) : Bool := ss[p]?.any isClosing

/-- The statements after position `p`, up to and with position `q`. -/
def between (ss : List Statement) (p q : Nat) : List Statement := (ss.drop (p + 1)).take (q - p)

/-- Among the statements after `p` up to `q` there is one end more than there are openings. -/
def exceeds (ss : List Statement) (p q : Nat) : Bool :=
  decide (p < q) && (between ss p q).countP isClosing == (between ss p q).countP isOpening + 1

/-- Where the fragment that opens at `p` is closed with stacked nesting: as soon as ends exceed
openings. -/
def closedAt? (ss : List Statement) (p : Nat) : Option Nat :=
  (List.range ss.length).find? (exceeds ss p)

/-- The greatest number below `i` with a property. -/
def greatestBelow (i : Nat) (P : Nat → Bool) : Option Nat := (List.range i).reverse.find? P

/-- The opening that a statement at position `i` belongs to; none if it belongs to the top level.
With stacked nesting it is the last one that is not closed before; with flat nesting the last one
of all, if no fragment has ended since. -/
def owner : Nesting → List Statement → Nat → Option Nat
  | .stacked, ss, i => greatestBelow i fun p => opensAt ss p && !(closedAt? ss p).any (· < i)
  | .flat, ss, i => (greatestBelow i (opensAt ss)).filter fun p =>
      !(List.range i).any fun q => p < q && endsAt ss q

/-! ## The stack -/

/-- What a statement at position `n` does to the positions of the open fragments. -/
def stackStep (nesting : Nesting) (n : Nat) (stack : List Nat) (st : Statement) : List Nat :=
  if isOpening st then
    match nesting with
    | .flat => n :: stack.tail
    | .stacked => n :: stack
  else if isClosing st then stack.tail
  else stack

/-- The positions of the open fragments after some statements, innermost first. -/
def openStack (nesting : Nesting) (ss : List Statement) : List Nat :=
  ss.zipIdx.foldl (fun stack s => stackStep nesting s.2 stack s.1) []

theorem openStack_concat (nesting : Nesting) (ss : List Statement) (st : Statement) :
    openStack nesting (ss ++ [st]) = stackStep nesting ss.length (openStack nesting ss) st := by
  simp [openStack, List.zipIdx_append]

theorem openStack_concat_of_neither {nesting : Nesting} {ss : List Statement} {st : Statement}
    (hopen : isOpening st = false) (hclose : isClosing st = false) :
    openStack nesting (ss ++ [st]) = openStack nesting ss := by
  rw [openStack_concat]
  simp [stackStep, hopen, hclose]

theorem openStack_concat_closing (nesting : Nesting) (ss : List Statement) :
    openStack nesting (ss ++ [.closing]) = (openStack nesting ss).tail :=
  openStack_concat nesting ss .closing

theorem mem_stackStep {nesting : Nesting} {n p : Nat} {stack : List Nat} {st : Statement}
    (h : p ∈ stackStep nesting n stack st) : (isOpening st ∧ p = n) ∨ p ∈ stack := by
  unfold stackStep at h
  by_cases hopen : isOpening st
  · rw [if_pos hopen] at h
    cases nesting with
    | flat => exact (List.mem_cons.mp h).imp (⟨hopen, ·⟩) List.mem_of_mem_tail
    | stacked => exact (List.mem_cons.mp h).imp (⟨hopen, ·⟩) id
  · rw [if_neg hopen] at h
    split at h
    · exact .inr (List.mem_of_mem_tail h)
    · exact .inr h

/-! ## Positions of a longer list -/

theorem greatestBelow_succ (n : Nat) (P : Nat → Bool) :
    greatestBelow (n + 1) P = if P n then some n else greatestBelow n P := by
  rw [greatestBelow, List.range_succ, List.reverse_append, List.reverse_singleton,
    List.singleton_append, List.find?_cons]
  cases P n <;> rfl

/-- Only properties below the bound count. -/
theorem greatestBelow_congr {n : Nat} {P Q : Nat → Bool} (h : ∀ p < n, P p = Q p) :
    greatestBelow n P = greatestBelow n Q := by
  induction n with
  | zero => rfl
  | succ n ih =>
    rw [greatestBelow_succ, greatestBelow_succ, h n (Nat.lt_succ_self n),
      ih fun p hp => h p (Nat.lt_succ_of_lt hp)]

theorem greatestBelow_lt {n p : Nat} {P : Nat → Bool} (h : greatestBelow n P = some p) :
    p < n ∧ P p := by
  have hmem := List.mem_of_find?_eq_some h
  exact ⟨by simpa using hmem, List.find?_some h⟩

section Take

variable {ss : List Statement} {i p : Nat}

theorem opensAt_take (hp : p < i) : opensAt (ss.take i) p = opensAt ss p := by
  simp [opensAt, hp]

theorem endsAt_take (hp : p < i) : endsAt (ss.take i) p = endsAt ss p := by
  simp [endsAt, hp]

theorem opensAt_concat_of_lt {st : Statement} (hp : p < ss.length) :
    opensAt (ss ++ [st]) p = opensAt ss p := by
  simp [opensAt, List.getElem?_append_left hp]

theorem endsAt_concat_of_lt {st : Statement} (hp : p < ss.length) :
    endsAt (ss ++ [st]) p = endsAt ss p := by
  simp [endsAt, List.getElem?_append_left hp]

@[simp] theorem opensAt_concat_length {st : Statement} :
    opensAt (ss ++ [st]) ss.length = isOpening st := by
  simp [opensAt]

@[simp] theorem endsAt_concat_length {st : Statement} :
    endsAt (ss ++ [st]) ss.length = isClosing st := by
  simp [endsAt]

theorem isClosing_of_isOpening {st : Statement} (h : isOpening st) : isClosing st = false := by
  cases st <;> first | rfl | cases h

end Take

/-! ## Levels -/

/-- What a statement does to the level of an open fragment. -/
def levelStep (level : Option Nat) (st : Statement) : Option Nat :=
  if isOpening st then level.map (· + 1)
  else if isClosing st then level.bind fun k => if k = 0 then none else some (k - 1)
  else level

/-- How many other fragments are open above one, after the statements that follow its opening; none
if it is closed. -/
def levelAfter (ss : List Statement) : Option Nat := ss.foldl levelStep (some 0)

theorem levelAfter_concat (ss : List Statement) (st : Statement) :
    levelAfter (ss ++ [st]) = levelStep (levelAfter ss) st := by
  simp [levelAfter]

/-- The level is what openings exceed ends by. -/
theorem countP_of_levelAfter {ss : List Statement} {k : Nat} (h : levelAfter ss = some k) :
    ss.countP isOpening = ss.countP isClosing + k := by
  induction ss using List.reverseRecOn generalizing k with
  | nil =>
    obtain rfl : 0 = k := Option.some.inj h
    rfl
  | append_singleton ss st ih =>
    rw [levelAfter_concat, levelStep] at h
    split at h
    · next hopen =>
      obtain ⟨j, hj, rfl⟩ := Option.map_eq_some_iff.mp h
      have hss := ih hj
      simp [hopen, isClosing_of_isOpening hopen]
      omega
    · next hopen =>
      split at h
      · next hclose =>
        obtain ⟨j, hj, hpred⟩ := Option.bind_eq_some_iff.mp h
        have hss := ih hj
        split at hpred
        · cases hpred
        · obtain rfl := Option.some.inj hpred
          simp [hopen, hclose]
          omega
      · next hclose =>
        have hss := ih h
        simp [hopen, hclose, hss]

/-- A fragment is closed as soon as ends exceed openings by one. -/
theorem levelAfter_eq_none_iff {ss : List Statement} :
    levelAfter ss = none ↔
      ∃ ys, ys <+: ss ∧ ys.countP isClosing = ys.countP isOpening + 1 := by
  induction ss using List.reverseRecOn with
  | nil => simp [levelAfter]
  | append_singleton ss st ih =>
    simp only [List.prefix_concat_iff, or_and_right, exists_or, exists_eq_left, ← ih]
    rw [levelAfter_concat]
    cases hlevel : levelAfter ss with
    | none => simp [levelStep]
    | some k =>
      -- Openings exceed ends by `k` before the statement: only an end at level 0 closes.
      have hcount := countP_of_levelAfter hlevel
      by_cases hopen : isOpening st
      · have hclose := isClosing_of_isOpening hopen
        simp [levelStep, hopen, hclose, hcount]
        omega
      · by_cases hclose : isClosing st
        · simp [levelStep, hopen, hclose, hcount]
        · simp [levelStep, hopen, hclose, hcount]
          omega

/-- Whether a fragment is closed before a position, said by the level. -/
theorem closedAt?_any_iff {ss : List Statement} {p i : Nat} (hi : i ≤ ss.length) :
    (closedAt? ss p).any (· < i) ↔ levelAfter ((ss.take i).drop (p + 1)) = none := by
  have hexists : (closedAt? ss p).any (· < i) ↔ ∃ q < i, exceeds ss p q := by
    rw [Option.any_eq_true]
    constructor
    · rintro ⟨q, hq, hqi⟩
      exact ⟨q, by simpa using hqi, List.find?_some hq⟩
    · rintro ⟨q, hqi, hq⟩
      have hsome : (closedAt? ss p).isSome :=
        List.find?_isSome.mpr ⟨q, List.mem_range.mpr (by omega), hq⟩
      obtain ⟨r, hr⟩ := Option.isSome_iff_exists.mp hsome
      obtain ⟨-, -, hleast⟩ := List.find?_range_eq_some.mp hr
      refine ⟨r, hr, ?_⟩
      have hle : ¬ q < r := fun hlt => by simpa [hq] using hleast q hlt
      simp only [decide_eq_true_eq]
      omega
  -- An excess of ends at `q` is a prefix of the statements after `p` that reaches up to `q`.
  rw [hexists, levelAfter_eq_none_iff, List.drop_take]
  constructor
  · rintro ⟨q, hqi, hq⟩
    obtain ⟨hpq, hcount⟩ := Bool.and_eq_true_iff.mp hq
    exact ⟨between ss p q, List.take_prefix_take_left (by omega), by simpa using hcount⟩
  · rintro ⟨ys, hprefix, hcount⟩
    obtain ⟨hys, hlength⟩ := List.prefix_take_iff.mp hprefix
    have hpos : 0 < ys.length := by
      rw [List.length_pos_iff]
      rintro rfl
      simp at hcount
    refine ⟨p + ys.length, by omega, ?_⟩
    have hbetween : between ss p (p + ys.length) = ys := by
      rw [between, Nat.add_sub_cancel_left]
      exact (List.prefix_iff_eq_take.mp hys).symm
    simp [exceeds, hbetween, hcount, hpos]

/-! ## The stack with stacked nesting -/

/-- The level of the fragment that opens at a position, after all statements. -/
def level (ss : List Statement) (p : Nat) : Option Nat := levelAfter (ss.drop (p + 1))

theorem level_concat_of_lt {ss : List Statement} {st : Statement} {p : Nat} (hp : p < ss.length) :
    level (ss ++ [st]) p = levelStep (level ss p) st := by
  rw [level, List.drop_append_of_le_length (by omega), levelAfter_concat, level]

@[simp] theorem level_concat_length {ss : List Statement} {st : Statement} :
    level (ss ++ [st]) ss.length = some 0 := by
  simp [level, levelAfter]

/-- The openings that are not closed after all statements, the last one first. -/
def unclosed (ss : List Statement) : List Nat :=
  (List.range ss.length).reverse.filter fun p => opensAt ss p && (level ss p).isSome

theorem mem_unclosed {ss : List Statement} {p : Nat} :
    p ∈ unclosed ss ↔ p < ss.length ∧ opensAt ss p ∧ (level ss p).isSome := by
  simp [unclosed]

/-- What one more statement does to the openings that are not closed, by their levels. -/
theorem unclosed_concat (ss : List Statement) (st : Statement) :
    unclosed (ss ++ [st]) = (if isOpening st then [ss.length] else []) ++
      (unclosed ss).filter fun p => (levelStep (level ss p) st).isSome := by
  -- The positions before the new one keep their statements, and their levels take one step.
  have hold : (List.range ss.length).reverse.filter
        (fun p => opensAt (ss ++ [st]) p && (level (ss ++ [st]) p).isSome) =
      (unclosed ss).filter fun p => (levelStep (level ss p) st).isSome := by
    rw [unclosed, List.filter_filter]
    refine List.filter_congr fun p hp => ?_
    have hlt : p < ss.length := by simpa using hp
    rw [opensAt_concat_of_lt hlt, level_concat_of_lt hlt]
    -- A closed fragment has no level again.
    cases hlevel : level ss p with
    | none => simp [levelStep]
    | some k => simp [Bool.and_comm]
  rw [unclosed, List.length_append, List.length_singleton, List.range_succ, List.reverse_append,
    List.reverse_singleton, List.singleton_append, List.filter_cons, hold]
  by_cases hopen : isOpening st <;> simp [hopen]

/-- The levels of the open fragments are `0, 1, 2, …` from the innermost one outwards. -/
def Leveled (ss : List Statement) : Prop :=
  (unclosed ss).map (level ss) = (List.range (unclosed ss).length).map some

/-- The levels after one more statement, of the openings that are not closed before it. -/
theorem map_level_concat (ss : List Statement) (st : Statement) :
    (unclosed ss).map (level (ss ++ [st])) =
      ((unclosed ss).map (level ss)).map (levelStep · st) := by
  rw [List.map_map]
  exact List.map_congr_left fun p hp => level_concat_of_lt (mem_unclosed.mp hp).1

/-- One more statement changes the open fragments as it changes the stack. -/
theorem unclosed_step {ss : List Statement} (h : Leveled ss) (st : Statement) :
    unclosed (ss ++ [st]) = stackStep .stacked ss.length (unclosed ss) st ∧
      Leveled (ss ++ [st]) := by
  have hsome : ∀ p ∈ unclosed ss, (level ss p).isSome := fun p hp => (mem_unclosed.mp hp).2.2
  have hlevels := map_level_concat ss st
  rw [h] at hlevels
  by_cases hopen : isOpening st
  · have heq : unclosed (ss ++ [st]) = ss.length :: unclosed ss := by
      rw [unclosed_concat, if_pos hopen, List.singleton_append, List.filter_eq_self.mpr]
      intro p hp
      simpa [levelStep, hopen] using hsome p hp
    refine ⟨by simp [heq, stackStep, hopen], ?_⟩
    rw [Leveled, heq, List.map_cons, level_concat_length, hlevels]
    simp [levelStep, hopen, List.range_succ_eq_map]
  · by_cases hclose : isClosing st
    · cases hU : unclosed ss with
      | nil =>
        have heq : unclosed (ss ++ [st]) = [] := by simp [unclosed_concat, hopen, hU]
        exact ⟨by simp [heq, stackStep, hopen, hclose], by simp [Leveled, heq]⟩
      | cons a outer =>
        rw [Leveled, hU, List.map_cons, List.length_cons, List.range_succ_eq_map, List.map_cons,
          List.cons.injEq, List.map_map] at h
        obtain ⟨hinner, houter⟩ := h
        -- The innermost fragment is the only one at level 0.
        have hstep : ∀ p ∈ outer, (levelStep (level ss p) st).isSome := by
          intro p hp
          have hmem := List.mem_map_of_mem (f := level ss) hp
          rw [houter, List.mem_map] at hmem
          obtain ⟨k, -, hk⟩ := hmem
          simp [← hk, levelStep, hopen, hclose]
        have heq : unclosed (ss ++ [st]) = outer := by
          rw [unclosed_concat, if_neg hopen, List.nil_append, hU, List.filter_cons, hinner,
            List.filter_eq_self.mpr hstep]
          simp [levelStep, hopen, hclose]
        refine ⟨by simp [heq, stackStep, hopen, hclose], ?_⟩
        rw [hU, List.length_cons, List.range_succ_eq_map, List.map_cons, List.map_cons,
          List.map_cons, List.cons.injEq] at hlevels
        rw [Leveled, heq, hlevels.2]
        simp [levelStep, hopen, hclose]
    · have heq : unclosed (ss ++ [st]) = unclosed ss := by
        rw [unclosed_concat, if_neg hopen, List.nil_append, List.filter_eq_self]
        intro p hp
        simpa [levelStep, hopen, hclose] using hsome p hp
      refine ⟨by simp [heq, stackStep, hopen, hclose], ?_⟩
      rw [Leveled, heq, hlevels]
      simp [levelStep, hopen, hclose]

/-- With stacked nesting the stack holds the openings that are not closed. -/
theorem openStack_stacked (ss : List Statement) :
    openStack .stacked ss = unclosed ss ∧ Leveled ss := by
  induction ss using List.reverseRecOn with
  | nil => exact ⟨rfl, rfl⟩
  | append_singleton ss st ih =>
    obtain ⟨hstack, hlevels⟩ := ih
    obtain ⟨hstep, hleveled⟩ := unclosed_step hlevels st
    exact ⟨by rw [openStack_concat, hstack, hstep], hleveled⟩

/-! ## The stack with flat nesting -/

/-- The opening that the statement after all statements belongs to, with flat nesting. -/
def current (ss : List Statement) : Option Nat :=
  (greatestBelow ss.length (opensAt ss)).filter fun p =>
    !(List.range ss.length).any fun q => p < q && endsAt ss q

/-- What one more statement does to it. -/
theorem current_concat (ss : List Statement) (st : Statement) :
    current (ss ++ [st]) =
      if isOpening st then some ss.length else if isClosing st then none else current ss := by
  have hold : greatestBelow ss.length (opensAt (ss ++ [st])) =
      greatestBelow ss.length (opensAt ss) :=
    greatestBelow_congr fun p hp => opensAt_concat_of_lt hp
  rw [current, List.length_append, List.length_singleton, greatestBelow_succ,
    opensAt_concat_length, hold]
  by_cases hopen : isOpening st
  · -- Nothing follows the new opening.
    rw [if_pos hopen, if_pos hopen, Option.filter_some, if_pos]
    simp [List.any_eq_false]
    omega
  · rw [if_neg hopen, if_neg hopen, current]
    cases hp : greatestBelow ss.length (opensAt ss) with
    | none => simp
    | some p =>
      have hlt : p < ss.length := (greatestBelow_lt hp).1
      have hany : (List.range ss.length).any (fun q => p < q && endsAt (ss ++ [st]) q) =
          (List.range ss.length).any fun q => p < q && endsAt ss q := by
        rw [Bool.eq_iff_iff, List.any_eq_true, List.any_eq_true]
        refine exists_congr fun q => and_congr_right fun hq => ?_
        rw [endsAt_concat_of_lt (List.mem_range.mp hq)]
      rw [Option.filter_some, Option.filter_some, List.range_succ, List.any_append, hany]
      by_cases hclose : isClosing st <;> simp [hclose, hlt]

/-- With flat nesting the stack holds the current fragment, if there is one. -/
theorem openStack_flat (ss : List Statement) : openStack .flat ss = (current ss).toList := by
  induction ss using List.reverseRecOn with
  | nil => rfl
  | append_singleton ss st ih =>
    rw [openStack_concat, ih, current_concat, stackStep]
    by_cases hopen : isOpening st
    · cases current ss <;> simp [hopen]
    · by_cases hclose : isClosing st
      · cases current ss <;> simp [hopen, hclose]
      · simp [hopen, hclose]

/-! ## Both ways of nesting -/

/-- The owner of the statement at a position is the innermost open fragment before it. -/
theorem owner_eq_head?_openStack (nesting : Nesting) {ss : List Statement} {i : Nat}
    (hi : i ≤ ss.length) : owner nesting ss i = (openStack nesting (ss.take i)).head? := by
  have hlength : (ss.take i).length = i := List.length_take_of_le hi
  cases nesting with
  | flat =>
    rw [openStack_flat, Option.head?_toList, current, owner, hlength,
      greatestBelow_congr fun p hp => opensAt_take hp]
    refine congrArg (Option.filter · _) (funext fun p => congrArg not ?_)
    rw [Bool.eq_iff_iff, List.any_eq_true, List.any_eq_true]
    refine exists_congr fun q => and_congr_right fun hq => ?_
    rw [endsAt_take (List.mem_range.mp hq)]
  | stacked =>
    rw [(openStack_stacked _).1, unclosed, List.head?_filter, owner, hlength]
    refine greatestBelow_congr fun p hp => ?_
    rw [opensAt_take hp, level]
    cases hlevel : levelAfter ((ss.take i).drop (p + 1)) with
    | none =>
      have hclosed : (closedAt? ss p).any (· < i) := (closedAt?_any_iff hi).mpr hlevel
      simp [hclosed]
    | some k =>
      have hopen : ¬ (closedAt? ss p).any (· < i) := by
        rw [closedAt?_any_iff hi, hlevel]
        simp
      simp [hopen]

end SequenceXmi.Mermaid
