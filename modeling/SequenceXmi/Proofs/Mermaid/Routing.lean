import Mathlib.Data.List.Perm.Basic
import SequenceXmi.Proofs.Mermaid.Nesting

/-! # Where messages go

`route` says without a stack which diagram a list of statements describes: every message and every
note stands in the fragment of its `owner`, in the order of the statements.

Main result: `read_eq_route`. Reading follows `route` statement by statement, since the open
fragments it remembers are those of `openStack`, each with the number of openings before it for its
place in the list of fragments. -/

namespace SequenceXmi.Mermaid

open Text

/-! ## What a statement says -/

namespace Statement

/-- The lifeline that a statement declares. -/
def lifeline? : Statement → Option Lifeline
  | .participant aliasName displayName => some ⟨aliasName, displayName.getD aliasName⟩
  | _ => none

/-- The message that a statement sends; a note is one too. -/
def message? : Statement → Option Message
  | .message sender receiver text => some (.synchronous sender receiver text)
  | .note target text => some (.note target text)
  | _ => none

/-- The operator and the guard of the fragment that a statement opens. -/
def opened? : Statement → Option (Operator × String)
  | .opening operator guard => some (operator, guard)
  | _ => none

/-- A message neither declares a lifeline nor opens or ends a fragment. -/
theorem of_message?_eq_some {st : Statement} {m : Message} (h : st.message? = some m) :
    st.lifeline? = none ∧ st.opened? = none ∧ st.isOpening = false ∧ st.isClosing = false := by
  cases st with
  | message | note => exact ⟨rfl, rfl, rfl, rfl⟩
  | _ => cases h

end Statement

open Statement (isOpening isClosing of_message?_eq_some)

/-- The statement of a line that is read; none if the line is blank, a comment, or left out. -/
def statement? (line : Line) : Option Statement :=
  if line.isIgnorable then none else (Statement.ofLine line.text).toOption

theorem statement?_eq_some {line : Line} {st : Statement} :
    statement? line = some st ↔
      line.isIgnorable = false ∧ Statement.ofLine line.text = .ok st := by
  unfold statement?
  by_cases hline : line.isIgnorable
  · simp [hline]
  · cases hst : Statement.ofLine line.text <;> simp [hline, Except.toOption]

theorem statement?_eq_none {line : Line} :
    statement? line = none ↔
      line.isIgnorable ∨ ∃ t, Statement.ofLine line.text = .error t := by
  unfold statement?
  by_cases hline : line.isIgnorable
  · simp [hline]
  · cases hst : Statement.ofLine line.text <;> simp [hline, Except.toOption]

/-- The statements of the accepted lines of a text. -/
def accepted (source : String) : List Statement := (lines source).filterMap statement?

/-! ## The diagram that statements describe -/

/-- The message at a position that belongs to `o`. -/
def messageAt? (nesting : Nesting) (ss : List Statement) (o : Option Nat) (i : Nat) :
    Option Message :=
  if owner nesting ss i = o then ss[i]?.bind (·.message?) else none

/-- The messages that belong to an opening, or to the top level. -/
def messagesOf (nesting : Nesting) (ss : List Statement) (o : Option Nat) : List Message :=
  (List.range ss.length).filterMap (messageAt? nesting ss o)

/-- The fragment that opens at a position. -/
def fragmentAt? (nesting : Nesting) (ss : List Statement) (p : Nat) : Option Fragment :=
  (ss[p]?.bind (·.opened?)).map fun (operator, guard) =>
    ⟨operator, guard, messagesOf nesting ss (some p)⟩

/-- The fragments, in the order in which they open. -/
def fragmentsOf (nesting : Nesting) (ss : List Statement) : List Fragment :=
  (List.range ss.length).filterMap (fragmentAt? nesting ss)

/-- The diagram that statements describe. -/
def route (nesting : Nesting) (ss : List Statement) : Diagram :=
  ⟨ss.filterMap (·.lifeline?), messagesOf nesting ss none, fragmentsOf nesting ss⟩

/-! ## Lists that grow at the end -/

theorem filterMap_concat {α β : Type} (f : α → Option β) (l : List α) (x : α) :
    (l ++ [x]).filterMap f = l.filterMap f ++ (f x).toList := by
  rw [List.filterMap_append]
  cases hx : f x <;> simp [hx]

theorem filterMap_range_succ {β : Type} (f : Nat → Option β) (n : Nat) :
    (List.range (n + 1)).filterMap f = (List.range n).filterMap f ++ (f n).toList := by
  rw [List.range_succ, filterMap_concat]

/-- A change behind the first list leaves the first list. -/
theorem modify_append_add {α : Type} (f : α → α) (l₁ l₂ : List α) (n : Nat) :
    (l₁ ++ l₂).modify (l₁.length + n) f = l₁ ++ l₂.modify n f := by
  induction l₁ with
  | nil => simp
  | cons y l₁ ih =>
    have hlength : (y :: l₁).length + n = l₁.length + n + 1 := by
      rw [List.length_cons]
      omega
    rw [hlength, List.cons_append, List.modify_succ_cons, ih, List.cons_append]

theorem modify_append_length {α : Type} (f : α → α) (l₁ : List α) (x : α) (l₂ : List α) :
    (l₁ ++ x :: l₂).modify l₁.length f = l₁ ++ f x :: l₂ :=
  modify_append_add f l₁ (x :: l₂) 0

/-- Changing one of the items that are kept changes the list at the place of this item. -/
theorem filterMap_range_modify {α : Type} {g g' : Nat → Option α} {f : α → α} {x : α} {n p : Nat}
    (hp : p < n) (hx : g p = some x) (hself : g' p = some (f x))
    (hother : ∀ q < n, q ≠ p → g' q = g q) :
    (List.range n).filterMap g' =
      ((List.range n).filterMap g).modify ((List.range p).filterMap g).length f := by
  obtain ⟨k, rfl⟩ := Nat.exists_eq_add_of_lt hp
  have hrange : List.range (p + k + 1) = List.range p ++ p :: List.range' (p + 1) k := by
    rw [Nat.add_assoc, List.range_add, List.range_succ_eq_map]
    simp [List.range'_eq_map_range, Nat.add_comm, Nat.add_left_comm]
  have hbefore : (List.range p).filterMap g' = (List.range p).filterMap g := by
    apply List.filterMap_congr
    intro q hq
    have hqp := List.mem_range.mp hq
    exact hother q (by omega) (by omega)
  have hafter : (List.range' (p + 1) k).filterMap g' = (List.range' (p + 1) k).filterMap g := by
    apply List.filterMap_congr
    intro q hq
    have hpq := List.mem_range'_1.mp hq
    exact hother q (by omega) (by omega)
  rw [hrange, List.filterMap_append, List.filterMap_append, List.filterMap_cons,
    List.filterMap_cons, hself, hx, hbefore, hafter, modify_append_length]

/-! ## The open fragments -/

section Stack

variable {nesting : Nesting} {ss : List Statement} {st : Statement}

/-- The stack holds positions of openings. -/
theorem of_mem_openStack {p : Nat} (h : p ∈ openStack nesting ss) :
    p < ss.length ∧ opensAt ss p := by
  induction ss using List.reverseRecOn with
  | nil => cases h
  | append_singleton ss st ih =>
    rw [openStack_concat] at h
    rcases mem_stackStep h with ⟨hopen, rfl⟩ | hold
    · exact ⟨by simp, by simpa using hopen⟩
    · obtain ⟨hlt, hopens⟩ := ih hold
      exact ⟨by simp; omega, by rwa [opensAt_concat_of_lt hlt]⟩

/-- A statement stands after the opening that it belongs to. -/
theorem lt_of_owner_eq_some {i p : Nat} (hi : i ≤ ss.length)
    (h : owner nesting ss i = some p) : p < i := by
  rw [owner_eq_head?_openStack nesting hi] at h
  have hlt := (of_mem_openStack (List.mem_of_head? h)).1
  rw [List.length_take] at hlt
  omega

/-- Later statements do not change the owner. -/
theorem owner_concat_of_le {i : Nat} (hi : i ≤ ss.length) :
    owner nesting (ss ++ [st]) i = owner nesting ss i := by
  rw [owner_eq_head?_openStack nesting (by simp; omega), owner_eq_head?_openStack nesting hi,
    List.take_append_of_le_length hi]

theorem owner_length : owner nesting ss ss.length = (openStack nesting ss).head? := by
  rw [owner_eq_head?_openStack nesting (Nat.le_refl _), List.take_length]

/-! ## One more statement -/

theorem messagesOf_concat (o : Option Nat) :
    messagesOf nesting (ss ++ [st]) o = messagesOf nesting ss o ++
      if (openStack nesting ss).head? = o then st.message?.toList else [] := by
  have hold : (List.range ss.length).filterMap (messageAt? nesting (ss ++ [st]) o) =
      messagesOf nesting ss o := by
    apply List.filterMap_congr
    intro i hi
    have hlt : i < ss.length := List.mem_range.mp hi
    unfold messageAt?
    rw [owner_concat_of_le (Nat.le_of_lt hlt), List.getElem?_append_left hlt]
  have hnew : messageAt? nesting (ss ++ [st]) o ss.length =
      if (openStack nesting ss).head? = o then st.message? else none := by
    unfold messageAt?
    rw [owner_concat_of_le (Nat.le_refl _), owner_length]
    simp
  rw [messagesOf, List.length_append, List.length_singleton, filterMap_range_succ, hold, hnew]
  by_cases howner : (openStack nesting ss).head? = o <;> simp [howner]

/-- How many fragments open before a position. -/
def rank (ss : List Statement) (p : Nat) : Nat := (List.range p).countP (opensAt ss)

theorem rank_concat_of_le {p : Nat} (hp : p ≤ ss.length) : rank (ss ++ [st]) p = rank ss p := by
  refine List.countP_congr fun q hq => ?_
  rw [opensAt_concat_of_lt (by have := List.mem_range.mp hq; omega)]

/-- An opening comes before the end in the list of fragments. -/
theorem rank_lt {p : Nat} (hp : p < ss.length) (hopens : opensAt ss p) :
    rank ss p < rank ss ss.length := by
  have hsucc : rank ss (p + 1) = rank ss p + 1 := by
    simp [rank, List.range_succ, hopens]
  have hle : rank ss (p + 1) ≤ rank ss ss.length :=
    (List.range_sublist.mpr hp).countP_le
  omega

/-- The places of open fragments stay the same. -/
theorem map_rank_concat {stack : List Nat} (h : stack ⊆ openStack nesting ss) :
    stack.map (rank (ss ++ [st])) = stack.map (rank ss) :=
  List.map_congr_left fun _ hq => rank_concat_of_le (Nat.le_of_lt (of_mem_openStack (h hq)).1)

theorem isSome_fragmentAt? (p : Nat) : (fragmentAt? nesting ss p).isSome = opensAt ss p := by
  rw [fragmentAt?, opensAt, Option.isSome_map]
  cases ss[p]? with
  | none => rfl
  | some st => cases st <;> rfl

/-- A fragment's place in the list is the number of openings before it. -/
theorem length_filterMap_fragmentAt? (p : Nat) :
    ((List.range p).filterMap (fragmentAt? nesting ss)).length = rank ss p := by
  rw [List.length_filterMap_eq_countP, rank]
  exact List.countP_congr fun q _ => by rw [isSome_fragmentAt?]

theorem length_fragmentsOf : (fragmentsOf nesting ss).length = rank ss ss.length :=
  length_filterMap_fragmentAt? ss.length

/-- The fragments of the old openings change only if the new statement is a message. -/
theorem fragmentAt?_concat_of_lt {p : Nat} (hp : p < ss.length) :
    fragmentAt? nesting (ss ++ [st]) p = (fragmentAt? nesting ss p).map fun f =>
      if (openStack nesting ss).head? = some p then
        { f with messages := f.messages ++ st.message?.toList } else f := by
  rw [fragmentAt?, fragmentAt?, messagesOf_concat, List.getElem?_append_left hp, Option.map_map]
  refine congrArg (Option.map · _) (funext fun (operator, guard) => ?_)
  by_cases howner : (openStack nesting ss).head? = some p <;> simp [howner]

/-- A fragment has no messages where it opens. -/
theorem fragmentAt?_concat_length :
    fragmentAt? nesting (ss ++ [st]) ss.length =
      st.opened?.map fun (operator, guard) => .empty operator guard := by
  have hnone : messagesOf nesting (ss ++ [st]) (some ss.length) = [] := by
    rw [messagesOf, List.filterMap_eq_nil_iff]
    intro i hi
    have hle : i ≤ ss.length := by simpa [Nat.lt_succ_iff] using hi
    apply if_neg
    intro howner
    -- The opening would own a statement that does not come after it.
    have hlt := lt_of_owner_eq_some (by simp; omega) howner
    omega
  simp [fragmentAt?, hnone, Fragment.empty]

theorem fragmentsOf_concat :
    fragmentsOf nesting (ss ++ [st]) =
      (List.range ss.length).filterMap (fragmentAt? nesting (ss ++ [st])) ++
        (st.opened?.map fun (operator, guard) => Fragment.empty operator guard).toList := by
  rw [fragmentsOf, List.length_append, List.length_singleton, filterMap_range_succ,
    fragmentAt?_concat_length]

/-- Without a message in a fragment the old fragments stay as they are. -/
theorem filterMap_fragmentAt?_concat_of_none
    (h : (openStack nesting ss).head? = none ∨ st.message? = none) :
    (List.range ss.length).filterMap (fragmentAt? nesting (ss ++ [st])) =
      fragmentsOf nesting ss := by
  apply List.filterMap_congr
  intro p hp
  rw [fragmentAt?_concat_of_lt (List.mem_range.mp hp)]
  rcases h with h | h <;> simp [h]

/-- A message inside a fragment changes the list of fragments at this fragment's place. -/
theorem filterMap_fragmentAt?_concat_of_message {m : Message} (hm : st.message? = some m) {p : Nat}
    (hp : (openStack nesting ss).head? = some p) :
    (List.range ss.length).filterMap (fragmentAt? nesting (ss ++ [st])) =
      (fragmentsOf nesting ss).modify (rank ss p) (·.push m) := by
  obtain ⟨hlt, hopens⟩ := of_mem_openStack (List.mem_of_head? hp)
  rw [← @isSome_fragmentAt? nesting] at hopens
  obtain ⟨f, hf⟩ := Option.isSome_iff_exists.mp hopens
  have hother : ∀ q < ss.length, q ≠ p →
      fragmentAt? nesting (ss ++ [st]) q = fragmentAt? nesting ss q := by
    intro q hq hne
    have howner : (openStack nesting ss).head? ≠ some q := by
      rw [hp]
      simpa using hne.symm
    rw [fragmentAt?_concat_of_lt hq]
    simp [howner]
  have hself : fragmentAt? nesting (ss ++ [st]) p = some (f.push m) := by
    rw [fragmentAt?_concat_of_lt hlt, hf]
    simp [hp, hm, Fragment.push]
  rw [fragmentsOf, ← length_filterMap_fragmentAt?]
  exact filterMap_range_modify hlt hf hself hother

/-! ### The whole diagram -/

/-- Any statement but a message declares a lifeline, or opens a fragment, or does neither. -/
theorem route_concat_of_no_message (hm : st.message? = none) :
    route nesting (ss ++ [st]) =
      { route nesting ss with
        lifelines := (route nesting ss).lifelines ++ st.lifeline?.toList
        fragments := (route nesting ss).fragments ++
          (st.opened?.map fun (operator, guard) => Fragment.empty operator guard).toList } := by
  rw [route, filterMap_concat, messagesOf_concat, fragmentsOf_concat,
    filterMap_fragmentAt?_concat_of_none (.inr hm), hm]
  simp [route]

/-- A message outside every fragment goes to the top level. -/
theorem route_concat_message_of_none {m : Message} (hm : st.message? = some m)
    (h : (openStack nesting ss).head? = none) :
    route nesting (ss ++ [st]) =
      { route nesting ss with topLevel := (route nesting ss).topLevel ++ [m] } := by
  obtain ⟨hl, ho, -, -⟩ := of_message?_eq_some hm
  rw [route, messagesOf_concat, fragmentsOf_concat, filterMap_fragmentAt?_concat_of_none (.inl h)]
  simp [route, h, hm, hl, ho]

/-- A message inside a fragment goes to the innermost one. -/
theorem route_concat_message_of_some {m : Message} (hm : st.message? = some m) {p : Nat}
    (h : (openStack nesting ss).head? = some p) :
    route nesting (ss ++ [st]) =
      { route nesting ss with
        fragments := (route nesting ss).fragments.modify (rank ss p) (·.push m) } := by
  obtain ⟨hl, ho, -, -⟩ := of_message?_eq_some hm
  rw [route, messagesOf_concat, fragmentsOf_concat, filterMap_fragmentAt?_concat_of_message hm h]
  simp [route, h, hl, ho]

end Stack

/-! ## Reading -/

/-- A message leaves the open fragments. -/
theorem Progress.opened_send (p : Progress) (m : Message) : (p.send m).opened = p.opened := by
  unfold send
  split <;> rfl

/-- What has been read is what the statements describe, and the open fragments are those of the
stack. -/
structure Routed (nesting : Nesting) (ss : List Statement) (p : Progress) : Prop where
  diagram : (⟨p.lifelines, p.topLevel, p.fragments⟩ : Diagram) = route nesting ss
  opened : p.opened.map (·.index) = (openStack nesting ss).map (rank ss)

namespace Routed

variable {nesting : Nesting} {ss : List Statement} {p : Progress}

theorem start (nesting : Nesting) : Routed nesting [] .start := ⟨rfl, rfl⟩

/-- Warnings are no part of the diagram. -/
theorem warn (h : Routed nesting ss p) (w : Warning) : Routed nesting ss (p.warn w) :=
  ⟨h.diagram, h.opened⟩

theorem fragments (h : Routed nesting ss p) : p.fragments = (route nesting ss).fragments :=
  congrArg (·.fragments) h.diagram

theorem send (h : Routed nesting ss p) {st : Statement} {m : Message} (hm : st.message? = some m) :
    Routed nesting (ss ++ [st]) (p.send m) := by
  obtain ⟨-, -, hopen, hclose⟩ := of_message?_eq_some hm
  have hstack : (p.send m).opened.map (·.index) =
      (openStack nesting (ss ++ [st])).map (rank (ss ++ [st])) := by
    rw [Progress.opened_send, openStack_concat_of_neither hopen hclose,
      map_rank_concat (List.Subset.refl _), h.opened]
  refine ⟨?_, hstack⟩
  have hopened := h.opened
  unfold Progress.send
  split
  · next hp =>
    -- No fragment is open.
    rw [hp, List.map_nil, eq_comm, List.map_eq_nil_iff] at hopened
    rw [route_concat_message_of_none hm (by rw [hopened]; rfl), ← h.diagram]
  · next o outer hp =>
    -- The innermost open fragment is the owner's.
    rw [hp, List.map_cons, eq_comm, List.map_eq_cons_iff] at hopened
    obtain ⟨q, rest, hq, hindex, -⟩ := hopened
    rw [route_concat_message_of_some hm (by rw [hq]; rfl), ← h.diagram, hindex]

/-- A new fragment lies inside those that its opening leaves open. -/
theorem push (h : Routed nesting ss p) {outer : List OpenFragment} {stack : List Nat}
    (houter : outer.map (·.index) = stack.map (rank ss)) (hsub : stack ⊆ openStack nesting ss)
    (operator : Operator) (guard : String) (span : Span)
    (hstack : openStack nesting (ss ++ [.opening operator guard]) = ss.length :: stack) :
    Routed nesting (ss ++ [.opening operator guard])
      ({ p with opened := outer }.push operator guard span) := by
  constructor
  · rw [route_concat_of_no_message rfl, ← h.diagram]
    simp [Progress.push, Statement.lifeline?, Statement.opened?]
  · have hlength : p.fragments.length = rank ss ss.length := by
      rw [h.fragments]
      exact length_fragmentsOf
    rw [hstack, List.map_cons, map_rank_concat hsub, ← houter, rank_concat_of_le (Nat.le_refl _),
      ← hlength]
    rfl

/-- The fragments around the innermost one. -/
theorem tail_opened (h : Routed nesting ss p) :
    p.opened.tail.map (·.index) = (openStack nesting ss).tail.map (rank ss) := by
  rw [List.map_tail, h.opened, List.map_tail]

theorem openFragment (h : Routed nesting ss p) (operator : Operator) (guard : String)
    (span : Span) : Routed nesting (ss ++ [.opening operator guard])
      (p.openFragment nesting operator guard span) := by
  have hstep := openStack_concat nesting ss (.opening operator guard)
  cases nesting with
  | stacked => exact h.push h.opened (List.Subset.refl _) operator guard span hstep
  | flat =>
    have htail : (openStack .flat ss).tail ⊆ openStack .flat ss := (List.tail_sublist _).subset
    unfold Progress.openFragment
    cases hp : p.opened with
    | nil =>
      have hpush := h.push h.tail_opened htail operator guard span hstep
      rwa [hp, List.tail_nil, ← hp] at hpush
    | cons previous outer =>
      have houter := h.tail_opened
      rw [hp, List.tail_cons] at houter
      exact (h.warn _).push houter htail operator guard span hstep

theorem closeFragment (h : Routed nesting ss p) (span : Span) :
    Routed nesting (ss ++ [.closing]) (p.closeFragment span) := by
  have hdiagram : route nesting (ss ++ [.closing]) = route nesting ss := by
    rw [route_concat_of_no_message rfl]
    simp [Statement.lifeline?, Statement.opened?]
  have htail : p.opened.tail.map (·.index) =
      (openStack nesting (ss ++ [.closing])).map (rank (ss ++ [.closing])) := by
    rw [openStack_concat_closing, map_rank_concat ((List.tail_sublist _).subset)]
    exact h.tail_opened
  unfold Progress.closeFragment
  cases hp : p.opened with
  | nil =>
    -- The stack is empty too, and its tail is what it was.
    refine ⟨by rw [hdiagram]; exact h.diagram, ?_⟩
    rw [← htail, hp]
    show p.opened.map (·.index) = _
    rw [hp, List.tail_nil]
  | cons o outer =>
    refine ⟨by rw [hdiagram]; exact h.diagram, ?_⟩
    rw [← htail, hp]
    rfl

/-- What one statement preserves. -/
theorem apply (h : Routed nesting ss p) (span : Span) (st : Statement) :
    Routed nesting (ss ++ [st]) (p.apply nesting span st) := by
  cases st with
  | header =>
    constructor
    · rw [route_concat_of_no_message rfl, ← h.diagram]
      simp [Progress.apply, Statement.lifeline?, Statement.opened?]
    · rw [openStack_concat_of_neither rfl rfl, map_rank_concat (List.Subset.refl _)]
      exact h.opened
  | participant aliasName displayName =>
    constructor
    · rw [route_concat_of_no_message rfl, ← h.diagram]
      simp [Progress.apply, Progress.declare, Statement.lifeline?, Statement.opened?]
    · rw [openStack_concat_of_neither rfl rfl, map_rank_concat (List.Subset.refl _)]
      exact h.opened
  | message sender receiver text => exact h.send rfl
  | opening operator guard => exact h.openFragment operator guard span
  | closing => exact h.closeFragment span
  | note target text => exact h.send rfl

/-- What one line preserves. -/
theorem step (h : Routed nesting ss p) (line : Line) :
    Routed nesting (ss ++ (statement? line).toList) (p.step nesting line) := by
  unfold Progress.step statement?
  split
  · simpa using h
  · cases Statement.ofLine line.text with
    | error t =>
      show Routed nesting (ss ++ []) _
      rw [List.append_nil]
      exact h.warn _
    | ok st => exact h.apply line.span st

/-- What all lines preserve. -/
theorem foldl_step (nesting : Nesting) (ls : List Line) :
    Routed nesting (ls.filterMap statement?) (ls.foldl (Progress.step nesting) .start) := by
  induction ls using List.reverseRecOn with
  | nil => exact start nesting
  | append_singleton ls line ih =>
    rw [List.foldl_append, filterMap_concat]
    exact ih.step line

end Routed

/-! ## Nothing is lost -/

/-- Messages of one fragment, or of the top level, keep their order. -/
theorem messagesOf_sublist (nesting : Nesting) (ss : List Statement) (o : Option Nat) :
    (messagesOf nesting ss o).Sublist (ss.filterMap (·.message?)) := by
  induction ss using List.reverseRecOn with
  | nil => exact List.Sublist.refl _
  | append_singleton ss st ih =>
    rw [messagesOf_concat, filterMap_concat]
    apply ih.append
    split
    · exact List.Sublist.refl _
    · exact List.nil_sublist _

theorem perm_flatMap_modify {fs : List Fragment} {i : Nat} (hi : i < fs.length) (m : Message) :
    ((fs.modify i (·.push m)).flatMap (·.messages)).Perm (fs.flatMap (·.messages) ++ [m]) := by
  induction fs generalizing i with
  | nil => cases hi
  | cons f fs ih =>
    cases i with
    | zero =>
      rw [List.modify_zero_cons, List.flatMap_cons, List.flatMap_cons, Fragment.push,
        List.append_assoc, List.append_assoc]
      exact List.perm_append_comm.append_left f.messages
    | succ i =>
      rw [List.modify_succ_cons, List.flatMap_cons, List.flatMap_cons, List.append_assoc]
      exact (ih (Nat.lt_of_succ_lt_succ hi)).append_left f.messages

/-- Every message stands in exactly one place. -/
theorem perm_allMessages_route (nesting : Nesting) (ss : List Statement) :
    (route nesting ss).allMessages.Perm (ss.filterMap (·.message?)) := by
  -- From the last statement: only a message changes either side, and adds itself to both.
  induction ss using List.reverseRecOn with
  | nil => exact List.Perm.refl _
  | append_singleton ss st ih =>
    rw [filterMap_concat]
    cases hm : st.message? with
    | none =>
      rw [route_concat_of_no_message hm]
      have hempty : (st.opened?.map fun (operator, guard) =>
          Fragment.empty operator guard).toList.flatMap (·.messages) = [] := by
        cases st.opened? <;> rfl
      simpa [Diagram.allMessages, hempty] using ih
    | some m =>
      refine List.Perm.trans ?_ (ih.append_right [m])
      cases howner : (openStack nesting ss).head? with
      | none =>
        rw [route_concat_message_of_none hm howner, Diagram.allMessages, Diagram.allMessages,
          List.append_assoc, List.append_assoc]
        exact List.perm_append_comm.append_left _
      | some p =>
        obtain ⟨hlt, hopens⟩ := of_mem_openStack (List.mem_of_head? howner)
        have hrank : rank ss p < (route nesting ss).fragments.length :=
          Nat.lt_of_lt_of_eq (rank_lt hlt hopens) length_fragmentsOf.symm
        rw [route_concat_message_of_some hm howner, Diagram.allMessages, Diagram.allMessages,
          List.append_assoc]
        exact (perm_flatMap_modify hrank m).append_left _

theorem diagram_read (nesting : Nesting) (source : String) :
    (read nesting source).diagram = route nesting (accepted source) :=
  (Routed.foldl_step nesting (lines source)).diagram

/-- Reading a text gives the diagram that its accepted statements describe. Each of their messages
stands in exactly one place, and no two in one place change their order. -/
theorem read_eq_route (nesting : Nesting) (source : String) :
    (read nesting source).diagram = route nesting (accepted source) ∧
      (read nesting source).diagram.allMessages.Perm
        ((accepted source).filterMap (·.message?)) ∧
      (read nesting source).diagram.topLevel.Sublist ((accepted source).filterMap (·.message?)) ∧
      ∀ f ∈ (read nesting source).diagram.fragments,
        f.messages.Sublist ((accepted source).filterMap (·.message?)) := by
  have hread : (read nesting source).diagram = route nesting (accepted source) :=
    (Routed.foldl_step nesting (lines source)).diagram
  rw [hread]
  refine ⟨rfl, perm_allMessages_route nesting _, messagesOf_sublist nesting _ none, ?_⟩
  intro f hf
  obtain ⟨p, -, hp⟩ := List.mem_filterMap.mp hf
  obtain ⟨opened, -, rfl⟩ := Option.map_eq_some_iff.mp hp
  exact messagesOf_sublist nesting _ (some p)

end SequenceXmi.Mermaid
