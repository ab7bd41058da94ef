import SequenceXmi.Proofs.Mermaid.Growing

/-! # Open fragments

While a text is read, the fragments that are open stand on a stack. Each is remembered by its
position in the list of all fragments and by the span of a line, and both have to mean something:
messages are added at a position, and the end of the text reports a fragment by its span.

What a line does to the stack is said once, in three cases (`StackStep`). From there the positions
on the stack are found to increase towards the innermost fragment and to lie inside the list
(`Ordered`), and each span is traced back to the line that added the fragment (`AddedBy`). Whatever
stands on no stack is frozen, as all that is read only grows.

Main result: `foldl_step_tracksOpen`, for any list of lines. -/

namespace SequenceXmi.Mermaid

open Text

/-! ## What one line does to the stack -/

/-- The fragments that stay open where a new one opens. -/
def Nesting.keptOpen : Nesting → List OpenFragment → List OpenFragment
  | .flat, opened => opened.tail
  | .stacked, opened => opened

/-- What a line may do to the open fragments, and to the number of all fragments. -/
inductive StackStep (nesting : Nesting) (line : Line) (p q : Progress) : Prop where
  /-- Nothing. -/
  | keeps (opened : q.opened = p.opened) (count : q.fragments.length = p.fragments.length)
  /-- The innermost open fragment ends, if there is one. -/
  | closes (opened : q.opened = p.opened.tail) (count : q.fragments.length = p.fragments.length)
  /-- A new fragment is added at the end of the list, and becomes the innermost open one. -/
  | opens (operator : Operator) (guard : String)
      (reads : statement? line = some (.opening operator guard))
      (opened : q.opened = ⟨p.fragments.length, line.span⟩ :: nesting.keptOpen p.opened)
      (fragments : q.fragments = p.fragments ++ [.empty operator guard])

theorem length_fragments_send (p : Progress) (m : Message) :
    (p.send m).fragments.length = p.fragments.length := by
  unfold Progress.send
  split
  · rfl
  · exact List.length_modify _ _ _

theorem fragments_closeFragment (p : Progress) (span : Span) :
    (p.closeFragment span).fragments = p.fragments := by
  unfold Progress.closeFragment
  split <;> rfl

/-- An opening adds a fragment, also where it closes another one first. -/
theorem openFragment_eq (nesting : Nesting) (p : Progress) (operator : Operator) (guard : String)
    (span : Span) :
    (p.openFragment nesting operator guard span).opened =
        ⟨p.fragments.length, span⟩ :: nesting.keptOpen p.opened ∧
      (p.openFragment nesting operator guard span).fragments =
        p.fragments ++ [.empty operator guard] := by
  unfold Progress.openFragment
  cases nesting with
  | stacked => exact ⟨rfl, rfl⟩
  | flat =>
    cases hp : p.opened with
    | nil => exact ⟨by simp [Progress.push, Nesting.keptOpen, hp], rfl⟩
    | cons previous outer => exact ⟨rfl, rfl⟩

theorem stackStep_step (nesting : Nesting) (p : Progress) (line : Line) :
    StackStep nesting line p (p.step nesting line) := by
  cases hst : statement? line with
  | some st =>
    rw [step_of_statement? hst]
    cases st with
    | header | participant => exact .keeps rfl rfl
    | message | note => exact .keeps (Progress.opened_send p _) (length_fragments_send p _)
    | closing =>
      have hfragments := fragments_closeFragment p line.span
      exact .closes (Progress.opened_closeFragment p line.span) (congrArg List.length hfragments)
    | opening operator guard =>
      obtain ⟨hopened, hfragments⟩ := openFragment_eq nesting p operator guard line.span
      exact .opens operator guard hst hopened hfragments
  | none =>
    -- The line is passed over or reported, and no fragment is looked at.
    unfold Progress.step
    rcases statement?_eq_none.mp hst with hignorable | ⟨t, herror⟩
    · rw [if_pos hignorable]
      exact .keeps rfl rfl
    · rw [herror]
      split
      · exact .keeps rfl rfl
      · exact .keeps rfl rfl

/-! ## Positions on the stack -/

/-- The positions on the stack lie inside the list, in its order. -/
structure Ordered (nesting : Nesting) (p : Progress) : Prop where
  /-- Whatever is open inside a fragment was added after it. -/
  decreasing : p.opened.Pairwise fun inner outer => outer.index < inner.index
  inside : ∀ o ∈ p.opened, o.index < p.fragments.length
  /-- With flat nesting at most one fragment is open, and none was added after it. -/
  flat : nesting = .flat →
    p.opened.length ≤ 1 ∧ ∀ o ∈ p.opened, o.index + 1 = p.fragments.length

namespace Ordered

variable {nesting : Nesting} {p q : Progress} {line : Line}

theorem start (nesting : Nesting) : Ordered nesting .start where
  decreasing := .nil
  inside := fun _ ho => absurd ho List.not_mem_nil
  flat := fun _ => ⟨Nat.zero_le _, fun _ ho => absurd ho List.not_mem_nil⟩

/-- The innermost fragments may be closed, while the list has as many fragments as before. -/
theorem of_suffix (h : Ordered nesting p) (hopened : q.opened <:+ p.opened)
    (hcount : q.fragments.length = p.fragments.length) : Ordered nesting q where
  decreasing := h.decreasing.sublist hopened.sublist
  inside := by
    intro o ho
    rw [hcount]
    exact h.inside o (hopened.subset ho)
  flat := by
    intro hflat
    obtain ⟨hone, hlast⟩ := h.flat hflat
    refine ⟨hopened.length_le.trans hone, ?_⟩
    intro o ho
    rw [hcount]
    exact hlast o (hopened.subset ho)

/-- A new fragment stands on top of what stays open, and behind all others in the list. -/
theorem opens (h : Ordered nesting p) {operator : Operator} {guard : String} {span : Span}
    (hopened : q.opened = ⟨p.fragments.length, span⟩ :: nesting.keptOpen p.opened)
    (hfragments : q.fragments = p.fragments ++ [.empty operator guard]) : Ordered nesting q := by
  have hcount : q.fragments.length = p.fragments.length + 1 := by
    rw [hfragments, List.length_append, List.length_singleton]
  have hkept : nesting.keptOpen p.opened <:+ p.opened := by
    cases nesting with
    | flat => exact List.tail_suffix _
    | stacked => exact List.suffix_refl _
  have hinside : ∀ o ∈ nesting.keptOpen p.opened, o.index < p.fragments.length := fun o ho =>
    h.inside o (hkept.subset ho)
  refine ⟨?_, ?_, ?_⟩
  · rw [hopened]
    exact List.pairwise_cons.mpr ⟨hinside, h.decreasing.sublist hkept.sublist⟩
  · intro o ho
    rw [hopened] at ho
    rw [hcount]
    rcases List.mem_cons.mp ho with rfl | hold
    · exact Nat.lt_succ_self _
    · exact Nat.lt_succ_of_lt (hinside o hold)
  · rintro rfl
    -- The new fragment is the only one, as it closes the one before.
    have hnone : p.opened.tail = [] := by
      have hone := (h.flat rfl).1
      refine List.eq_nil_of_length_eq_zero ?_
      rw [List.length_tail]
      omega
    rw [hopened, Nesting.keptOpen, hnone]
    refine ⟨Nat.le_refl 1, ?_⟩
    intro o ho
    rw [List.mem_singleton.mp ho, hcount]

/-- What one line preserves. -/
theorem step (h : Ordered nesting p) (line : Line) : Ordered nesting (p.step nesting line) := by
  cases stackStep_step nesting p line with
  | keeps hopened hcount =>
    exact h.of_suffix (hopened ▸ List.suffix_refl _) hcount
  | closes hopened hcount =>
    exact h.of_suffix (hopened ▸ List.tail_suffix _) hcount
  | opens operator guard _ hopened hfragments => exact h.opens hopened hfragments

/-- What all lines preserve. -/
theorem foldl_step (nesting : Nesting) (ls : List Line) :
    Ordered nesting (ls.foldl (Progress.step nesting) .start) := by
  induction ls using List.reverseRecOn with
  | nil => exact start nesting
  | append_singleton ls line ih =>
    rw [List.foldl_append]
    exact ih.step line

end Ordered

/-! ## Lines on the stack -/

/-- A line of some lines adds the fragment at a position of the list: as many fragments are there
before it, and it opens one with the same operator and guard. -/
def AddedBy (nesting : Nesting) (ls : List Line) (position : Nat) (f : Fragment) (line : Line) :
    Prop :=
  ∃ before after, ls = before ++ line :: after ∧
    (before.foldl (Progress.step nesting) .start).fragments.length = position ∧
    statement? line = some (openingOf f)

/-- More lines may follow, and more messages may be added to the fragment. -/
theorem AddedBy.extend {nesting : Nesting} {ls : List Line} {position : Nat} {f g : Fragment}
    {line : Line} (h : AddedBy nesting ls position f line) (hfg : ExtendedBy f g)
    (more : List Line) : AddedBy nesting (ls ++ more) position g line := by
  obtain ⟨before, after, rfl, hposition, hreads⟩ := h
  refine ⟨before, after ++ more, by simp, hposition, ?_⟩
  rw [hreads, openingOf, openingOf, hfg.operator, hfg.guard]

/-- Every open fragment is remembered with the span of the line that added it. -/
def SpansTraced (nesting : Nesting) (ls : List Line) (p : Progress) : Prop :=
  ∀ o ∈ p.opened, ∃ f line, p.fragments[o.index]? = some f ∧
    AddedBy nesting ls o.index f line ∧ o.span = line.span

namespace SpansTraced

variable {nesting : Nesting} {ls : List Line} {p : Progress}

/-- What is open before and after a line is traced to the line it was traced to before. -/
theorem extend (h : SpansTraced nesting ls p) (line : Line) {o : OpenFragment}
    (ho : o ∈ p.opened) :
    ∃ f l, (p.step nesting line).fragments[o.index]? = some f ∧
      AddedBy nesting (ls ++ [line]) o.index f l ∧ o.span = l.span := by
  obtain ⟨f, l, hf, hadded, hspan⟩ := h o ho
  obtain ⟨g, hg, hfg⟩ := (GrowsTo.step nesting p line).fragments o.index f hf
  exact ⟨g, l, hg, hadded.extend hfg [line], hspan⟩

/-- What one more line preserves. -/
theorem step (h : SpansTraced nesting ls p)
    (hp : p = ls.foldl (Progress.step nesting) .start) (line : Line) :
    SpansTraced nesting (ls ++ [line]) (p.step nesting line) := by
  intro o ho
  cases stackStep_step nesting p line with
  | keeps hopened _ =>
    rw [hopened] at ho
    exact h.extend line ho
  | closes hopened _ =>
    rw [hopened] at ho
    exact h.extend line (List.mem_of_mem_tail ho)
  | opens operator guard hreads hopened hfragments =>
    rw [hopened] at ho
    -- The new fragment is traced to this line, the others to theirs.
    rcases List.mem_cons.mp ho with rfl | hold
    · refine ⟨.empty operator guard, line, ?_, ⟨ls, [], rfl, by rw [← hp], hreads⟩, rfl⟩
      rw [hfragments]
      exact List.getElem?_concat_length
    · have hmem : o ∈ p.opened := by
        cases nesting with
        | flat => exact List.mem_of_mem_tail hold
        | stacked => exact hold
      exact h.extend line hmem

/-- What all lines preserve. -/
theorem foldl_step (nesting : Nesting) (ls : List Line) :
    SpansTraced nesting ls (ls.foldl (Progress.step nesting) .start) := by
  induction ls using List.reverseRecOn with
  | nil => exact fun _ ho => absurd ho List.not_mem_nil
  | append_singleton ls line ih =>
    rw [List.foldl_append]
    exact ih.step rfl line

end SpansTraced

/-! ## Every state of a reader -/

/-- What is known about the open fragments when some lines have been read. -/
structure TracksOpen (nesting : Nesting) (ls : List Line) (p : Progress) : Prop where
  /-- From the outermost open fragment to the innermost one, positions increase. -/
  increasing : (p.opened.reverse.map (·.index)).Pairwise (· < ·)
  /-- Every position is one of the list of fragments. -/
  inside : ∀ o ∈ p.opened, o.index < p.fragments.length
  /-- A message finds the innermost open fragment in the list, and becomes its last one. -/
  receives : ∀ (m : Message) (o : OpenFragment) (outer : List OpenFragment),
    p.opened = o :: outer → ∃ f, p.fragments[o.index]? = some f ∧
      (p.send m).fragments = p.fragments.set o.index (f.push m)
  /-- The end of the text finds every open fragment in the list, and reports it. -/
  reports : ∀ o ∈ p.opened, ∃ f, p.fragments[o.index]? = some f ∧
    p.unclosed? o = some (.unclosedFragment f.operator o.span)
  /-- The span of an open fragment is that of the line that added the fragment. -/
  spans : ∀ o ∈ p.opened, ∃ f line, p.fragments[o.index]? = some f ∧
    AddedBy nesting ls o.index f line ∧ o.span = line.span
  /-- With flat nesting at most one fragment is open, and it is the last one of the list. -/
  single : nesting = .flat →
    p.opened.length ≤ 1 ∧ ∀ o ∈ p.opened, o.index + 1 = p.fragments.length
  /-- Whatever lines follow, a fragment that is not open stays as it is. -/
  frozen : ∀ (more : List Line) (k : Nat) (f : Fragment), p.fragments[k]? = some f →
    (∀ o ∈ p.opened, o.index ≠ k) → (more.foldl (Progress.step nesting) p).fragments[k]? = some f

/-- A message to a fragment in the list replaces it by the longer one. -/
theorem fragments_send_of_lt {p : Progress} {o : OpenFragment} {outer : List OpenFragment}
    (hp : p.opened = o :: outer) (ho : o.index < p.fragments.length) (m : Message) :
    (p.send m).fragments = p.fragments.set o.index (p.fragments[o.index].push m) := by
  unfold Progress.send
  rw [hp]
  show p.fragments.modify o.index (·.push m) = _
  rw [List.modify_eq_set_getElem?, List.getElem?_eq_getElem ho]
  rfl

/-- Whatever lines a reader is given, at each of them it knows its open fragments. -/
theorem foldl_step_tracksOpen (nesting : Nesting) (ls : List Line) :
    TracksOpen nesting ls (ls.foldl (Progress.step nesting) .start) := by
  have hordered := Ordered.foldl_step nesting ls
  have hspans := SpansTraced.foldl_step nesting ls
  refine ⟨?_, hordered.inside, ?_, ?_, hspans, hordered.flat, ?_⟩
  · rw [List.map_reverse, List.pairwise_reverse, List.pairwise_map]
    exact hordered.decreasing
  · intro m o outer hp
    have ho := hordered.inside o (by rw [hp]; exact List.mem_cons_self)
    exact ⟨_, List.getElem?_eq_getElem ho, fragments_send_of_lt hp ho m⟩
  · intro o ho
    have hf := List.getElem?_eq_getElem (hordered.inside o ho)
    exact ⟨_, hf, by rw [Progress.unclosed?, hf]; rfl⟩
  · intro more k f hf hclosed
    exact (GrowsTo.foldl_step nesting _ more).frozen k f hf hclosed

end SequenceXmi.Mermaid
