import SequenceXmi.Proofs.Mermaid.Nesting

/-! # Which end closes which opening

Openings and ends of fragments match as brackets do: an end matches an opening if what stands
between them is balanced, that is, put together of whole fragments (`Matches`). Ends that match
nothing do not disturb this, since they never stand between an opening and its end.

With stacked nesting the stack knows what matches. An end matches something if and only if the stack
is not empty before it (`exists_matches_concat_iff`), and an opening stays on the stack if and only
if nothing matches it (`isSome_level_iff`). Both come from the levels of the open fragments, for
which being balanced is being back at the level of the beginning (`balanced_iff`). -/

namespace SequenceXmi.Mermaid

open Statement (isOpening isClosing)

/-! ## Balanced statements -/

/-- Statements in which every opening has its end, and every end its opening. -/
inductive Balanced : List Statement → Prop where
  | nil : Balanced []
  /-- A statement that neither opens nor ends a fragment comes first. -/
  | other {st : Statement} {rest : List Statement} : isOpening st = false → isClosing st = false →
      Balanced rest → Balanced (st :: rest)
  /-- A whole fragment comes first. -/
  | fragment {opening ending : Statement} {inner rest : List Statement} : isOpening opening →
      Balanced inner → isClosing ending → Balanced rest →
      Balanced (opening :: (inner ++ ending :: rest))

/-- A fragment that is closed stays closed. -/
theorem foldl_levelStep_none (ss : List Statement) : ss.foldl levelStep none = none := by
  induction ss with
  | nil => rfl
  | cons st ss ih =>
    have hstep : levelStep none st = none := by simp [levelStep]
    rw [List.foldl_cons, hstep, ih]

theorem levelStep_of_isOpening {st : Statement} (h : isOpening st) (k : Nat) :
    levelStep (some k) st = some (k + 1) := by
  simp [levelStep, h]

theorem levelStep_of_isClosing {st : Statement} (h : isClosing st) (k : Nat) :
    levelStep (some k) st = if k = 0 then none else some (k - 1) := by
  have hopen : isOpening st = false := by
    by_contra hne
    rw [isClosing_of_isOpening (by simpa using hne)] at h
    cases h
  simp [levelStep, hopen, h]

theorem levelStep_of_neither {st : Statement} (hopen : isOpening st = false)
    (hclose : isClosing st = false) (level : Option Nat) : levelStep level st = level := by
  simp [levelStep, hopen, hclose]

/-- Balanced statements lead back to the level at which they begin. -/
theorem Balanced.foldl_levelStep {ss : List Statement} (h : Balanced ss) (k : Nat) :
    ss.foldl levelStep (some k) = some k := by
  induction h generalizing k with
  | nil => rfl
  | other hopen hclose _ ih => rw [List.foldl_cons, levelStep_of_neither hopen hclose, ih]
  | fragment hopen _ hclose _ ihInner ihRest =>
    rw [List.foldl_cons, levelStep_of_isOpening hopen, List.foldl_append, ihInner, List.foldl_cons,
      levelStep_of_isClosing hclose, if_neg (Nat.succ_ne_zero k), Nat.add_sub_cancel, ihRest]

/-- Statements that end `k` fragments of those open before them, and are balanced otherwise. -/
inductive Unwinds : Nat → List Statement → Prop where
  | zero {ss : List Statement} : Balanced ss → Unwinds 0 ss
  | succ {k : Nat} {ending : Statement} {front rest : List Statement} : Balanced front →
      isClosing ending → Unwinds k rest → Unwinds (k + 1) (front ++ ending :: rest)

/-- One more fragment in front. -/
theorem Unwinds.fragment {k : Nat} {opening ending : Statement} {inner rest : List Statement}
    (hopen : isOpening opening) (hinner : Balanced inner) (hclose : isClosing ending)
    (h : Unwinds k rest) : Unwinds k (opening :: (inner ++ ending :: rest)) := by
  cases h with
  | zero hrest => exact .zero (.fragment hopen hinner hclose hrest)
  | @succ k last front after hfront hlast hafter =>
    have hwhole := Unwinds.succ (.fragment hopen hinner hclose hfront) hlast hafter
    simpa using hwhole

/-- One more statement in front that is no bracket. -/
theorem Unwinds.other {k : Nat} {st : Statement} {rest : List Statement}
    (hopen : isOpening st = false) (hclose : isClosing st = false) (h : Unwinds k rest) :
    Unwinds k (st :: rest) := by
  cases h with
  | zero hrest => exact .zero (.other hopen hclose hrest)
  | succ hfront hlast hafter => exact .succ (.other hopen hclose hfront) hlast hafter

/-- Statements that lead down from level `k` to level 0 end `k` fragments. -/
theorem unwinds_of_foldl_levelStep {ss : List Statement} {k : Nat}
    (h : ss.foldl levelStep (some k) = some 0) : Unwinds k ss := by
  induction ss generalizing k with
  | nil =>
    obtain rfl : k = 0 := Option.some.inj h
    exact .zero .nil
  | cons st ss ih =>
    rw [List.foldl_cons] at h
    by_cases hopen : isOpening st
    · rw [levelStep_of_isOpening hopen] at h
      -- The first of the `k + 1` ends that follow belongs to this opening.
      cases ih h with
      | succ hinner hclose hrest => exact hrest.fragment hopen hinner hclose
    · by_cases hclose : isClosing st
      · rw [levelStep_of_isClosing hclose] at h
        cases k with
        | zero =>
          rw [if_pos rfl, foldl_levelStep_none] at h
          cases h
        | succ k =>
          rw [if_neg (Nat.succ_ne_zero k)] at h
          exact .succ .nil hclose (ih h)
      · rw [levelStep_of_neither (by simpa using hopen) (by simpa using hclose)] at h
        exact (ih h).other (by simpa using hopen) (by simpa using hclose)

/-- Statements are balanced if they leave a fragment around them where it was, at level 0. -/
theorem balanced_iff {ss : List Statement} : Balanced ss ↔ levelAfter ss = some 0 := by
  constructor
  · intro h
    exact h.foldl_levelStep 0
  · intro h
    cases unwinds_of_foldl_levelStep h with
    | zero hbalanced => exact hbalanced

instance (ss : List Statement) : Decidable (Balanced ss) := decidable_of_iff _ balanced_iff.symm

/-! ## Matching -/

/-- The end at position `q` belongs to the opening at position `p`: what stands between them is
balanced. -/
def Matches (ss : List Statement) (p q : Nat) : Prop :=
  p < q ∧ opensAt ss p ∧ endsAt ss q ∧ Balanced ((ss.take q).drop (p + 1))

instance (ss : List Statement) (p q : Nat) : Decidable (Matches ss p q) :=
  inferInstanceAs (Decidable (_ ∧ _ ∧ _ ∧ _))

section

variable {ss : List Statement} {st : Statement} {p q : Nat}

/-- Later statements do not change what matches. -/
theorem matches_concat_of_lt (hq : q < ss.length) : Matches (ss ++ [st]) p q ↔ Matches ss p q := by
  unfold Matches
  rw [List.take_append_of_le_length (by omega), endsAt_concat_of_lt hq]
  refine and_congr_right fun hpq => ?_
  rw [opensAt_concat_of_lt (by omega)]

/-- A new end belongs to the opening at level 0. -/
theorem matches_concat_length :
    Matches (ss ++ [st]) p ss.length ↔
      p < ss.length ∧ isClosing st ∧ opensAt ss p ∧ level ss p = some 0 := by
  unfold Matches
  rw [List.take_append_of_le_length (Nat.le_refl _), List.take_length, endsAt_concat_length,
    balanced_iff]
  refine and_congr_right fun hp => ?_
  rw [opensAt_concat_of_lt hp, level]
  exact and_left_comm

/-- Among the open fragments there is one at level 0, if there is any. -/
theorem exists_level_zero_iff :
    (∃ p < ss.length, opensAt ss p ∧ level ss p = some 0) ↔ openStack .stacked ss ≠ [] := by
  obtain ⟨hstack, hleveled⟩ := openStack_stacked ss
  rw [hstack]
  constructor
  · rintro ⟨p, hp, hopens, hlevel⟩
    have hmem : p ∈ unclosed ss := mem_unclosed.mpr ⟨hp, hopens, by rw [hlevel]; rfl⟩
    exact List.ne_nil_of_mem hmem
  · intro hne
    obtain ⟨a, outer, hunclosed⟩ := List.exists_cons_of_ne_nil hne
    obtain ⟨ha, hopens, -⟩ := mem_unclosed.mp (hunclosed ▸ List.mem_cons_self : a ∈ unclosed ss)
    -- The levels count up from 0, beginning with the innermost fragment.
    rw [Leveled, hunclosed, List.map_cons, List.length_cons, List.range_succ_eq_map, List.map_cons,
      List.cons.injEq] at hleveled
    exact ⟨a, ha, hopens, hleveled.1⟩

/-- A new end matches something if and only if a fragment is open. -/
theorem exists_matches_concat_iff (ss : List Statement) (hclose : isClosing st) :
    (∃ p < ss.length, Matches (ss ++ [st]) p ss.length) ↔ openStack .stacked ss ≠ [] := by
  rw [← exists_level_zero_iff]
  refine exists_congr fun p => and_congr_right fun hp => ?_
  rw [matches_concat_length]
  exact ⟨fun h => h.2.2, fun h => ⟨hp, hclose, h⟩⟩

/-- An opening has a level as long as no end matches it. -/
theorem isSome_level_iff (hp : p < ss.length) (hopens : opensAt ss p) :
    (level ss p).isSome ↔ ¬ ∃ q < ss.length, Matches ss p q := by
  induction ss using List.reverseRecOn with
  | nil => cases hp
  | append_singleton ss st ih =>
    rw [List.length_append, List.length_singleton] at hp ⊢
    by_cases hlast : p = ss.length
    · -- Nothing follows the opening.
      subst hlast
      rw [level_concat_length]
      refine ⟨fun _ => ?_, fun _ => rfl⟩
      rintro ⟨q, hq, hmatches⟩
      have hlt := hmatches.1
      omega
    · have hlt : p < ss.length := by omega
      rw [opensAt_concat_of_lt hlt] at hopens
      have hsplit : (∃ q < ss.length + 1, Matches (ss ++ [st]) p q) ↔
          (∃ q < ss.length, Matches ss p q) ∨ (isClosing st ∧ level ss p = some 0) := by
        constructor
        · rintro ⟨q, hq, hmatches⟩
          by_cases hend : q = ss.length
          · subst hend
            obtain ⟨-, hclose, -, hlevel⟩ := matches_concat_length.mp hmatches
            exact .inr ⟨hclose, hlevel⟩
          · have hqlt : q < ss.length := by omega
            exact .inl ⟨q, hqlt, (matches_concat_of_lt hqlt).mp hmatches⟩
        · rintro (⟨q, hq, hmatches⟩ | ⟨hclose, hlevel⟩)
          · exact ⟨q, by omega, (matches_concat_of_lt hq).mpr hmatches⟩
          · exact ⟨ss.length, by omega, matches_concat_length.mpr ⟨hlt, hclose, hopens, hlevel⟩⟩
      rw [hsplit, not_or, ← ih hlt hopens, level_concat_of_lt hlt]
      -- Only an end at level 0 takes the level away.
      cases hlevel : level ss p with
      | none => simp [levelStep]
      | some k =>
        by_cases hopen : isOpening st
        · rw [levelStep_of_isOpening hopen]
          simp [isClosing_of_isOpening hopen]
        · by_cases hclose : isClosing st
          · rw [levelStep_of_isClosing hclose]
            by_cases hk : k = 0 <;> simp [hk, hclose]
          · rw [levelStep_of_neither (by simpa using hopen) (by simpa using hclose)]
            simp [hclose]

end

end SequenceXmi.Mermaid
