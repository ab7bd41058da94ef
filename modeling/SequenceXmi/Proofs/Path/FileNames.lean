import Mathlib.Data.List.TakeWhile
import SequenceXmi.Path

/-! # The last name of a path

Where a path has a last name that says something, its text falls into three parts: what stands
before the name, the name, and slashes and names `.` that say nothing (`LastName`). Each way to look
at a path can then be read off these parts: cutting it before its file name gives the first two
(`LastName.splitName_eq`), and its last component is the name, after components that depend on the
first part only (`LastName.components_eq`). -/

namespace SequenceXmi.Path

open Text (splitOn consPart)

/-! ## What stands after the last name -/

/-- Slashes and names `.` after them. -/
inductive IsTrailing : List Char → Prop
  | nil : IsTrailing []
  | slash {after : List Char} (h : IsTrailing after) : IsTrailing ('/' :: after)
  | here {after : List Char} (h : IsTrailing after) : IsTrailing ('/' :: '.' :: after)

namespace IsTrailing

theorem append {a b : List Char} (ha : IsTrailing a) (hb : IsTrailing b) : IsTrailing (a ++ b) := by
  induction ha with
  | nil => exact hb
  | slash _ ih => exact .slash ih
  | here _ ih => exact .here ih

theorem of_isPrefix {a after : List Char} (h : IsTrailing after) (ha : a <+: after) :
    IsTrailing a := by
  induction h generalizing a with
  | nil =>
    obtain rfl := List.prefix_nil.mp ha
    exact .nil
  | slash _ ih =>
    rcases List.prefix_cons_iff.mp ha with rfl | ⟨b, rfl, hb⟩
    · exact .nil
    · exact .slash (ih hb)
  | here _ ih =>
    rcases List.prefix_cons_iff.mp ha with rfl | ⟨b, rfl, hb⟩
    · exact .nil
    rcases List.prefix_cons_iff.mp hb with rfl | ⟨d, rfl, hd⟩
    · exact .slash .nil
    · exact .here (ih hd)

/-- What stands after the last name is dropped. -/
theorem dropTrailing_reverse_append {after : List Char} (h : IsTrailing after)
    (front : List Char) : dropTrailing (after.reverse ++ front) = dropTrailing front := by
  induction h generalizing front with
  | nil => rfl
  | slash _ ih => simp [ih, dropTrailing]
  | here _ ih => simp [ih, dropTrailing]

/-- After the last name there are parts that say nothing. -/
theorem exists_splitOn {after : List Char} (h : IsTrailing after) :
    ∃ rest, splitOn '/' after = [] :: rest ∧ rest.filterMap component? = [] := by
  induction h with
  | nil => exact ⟨[], rfl, rfl⟩
  | slash _ ih =>
    obtain ⟨rest, hsplit, hrest⟩ := ih
    exact ⟨[] :: rest, by simp [hsplit, consPart], by simpa [component?] using hrest⟩
  | here _ ih =>
    obtain ⟨rest, hsplit, hrest⟩ := ih
    exact ⟨['.'] :: rest, by simp [hsplit, consPart], by simpa [component?] using hrest⟩

end IsTrailing

/-- What is dropped at the end of a path says nothing. -/
theorem exists_isTrailing (reversed : List Char) :
    ∃ after, IsTrailing after ∧ reversed = after.reverse ++ dropTrailing reversed := by
  induction reversed using dropTrailing.induct with
  | case1 rest ih =>
    obtain ⟨after, hafter, hrest⟩ := ih
    refine ⟨after ++ ['/'], hafter.append (.slash .nil), ?_⟩
    simpa [dropTrailing] using hrest
  | case2 rest ih =>
    obtain ⟨after, hafter, hrest⟩ := ih
    refine ⟨after ++ ['/', '.'], hafter.append (.here .nil), ?_⟩
    simpa [dropTrailing] using hrest
  | case3 rest hslash hhere => exact ⟨[], .nil, by rw [dropTrailing]; exacts [rfl, hslash, hhere]⟩

/-! ## The parts of a path -/

/-- The text of a path falls into what stands before its last name, this name, and what says
nothing after it. -/
structure LastName (text before name after : List Char) : Prop where
  text_eq : text = before ++ name ++ after
  /-- The name is whole. -/
  before_end : ∀ c ∈ before.getLast?, c = '/'
  no_slash : '/' ∉ name
  ne_nil : name ≠ []
  ne_here : name ≠ ['.']
  after : IsTrailing after

theorem isFileName_iff {name : List Char} :
    isFileName name ↔ name ≠ [] ∧ name ≠ ['.'] ∧ name ≠ ['.', '.'] := by
  simp [isFileName, and_assoc]

/-- Before the last name there is nothing, or it ends in a slash. -/
theorem before_cases {before : List Char} (h : ∀ c ∈ before.getLast?, c = '/') :
    before = [] ∨ ∃ front, before = front ++ ['/'] := by
  rcases List.eq_nil_or_concat before with rfl | ⟨front, c, rfl⟩
  · exact .inl rfl
  · obtain rfl : c = '/' := h c (by simp)
    exact .inr ⟨front, by simp⟩

namespace LastName

variable {text before name after : List Char}

/-- What is left of the path without what stands after the last name. -/
theorem dropTrailing_reverse (h : LastName text before name after) :
    dropTrailing text.reverse = name.reverse ++ before.reverse := by
  have hdrop : dropTrailing (name.reverse ++ before.reverse) = name.reverse ++ before.reverse := by
    rcases List.eq_nil_or_concat name with hnil | ⟨front, c, hname⟩
    · exact absurd hnil h.ne_nil
    have hc : c ≠ '/' := by
      rintro rfl
      exact h.no_slash (by simp [hname])
    rw [dropTrailing]
    · simp [hname, hc]
    · -- A name that ends in a dot has something else before it, and that is no slash.
      intro rest hrest
      rcases List.eq_nil_or_concat front with rfl | ⟨front, d, rfl⟩
      · exact h.ne_here (by simp_all)
      · exact h.no_slash (by simp_all)
  have hreverse : text.reverse = after.reverse ++ (name.reverse ++ before.reverse) := by
    simp [h.text_eq]
  rw [hreverse, h.after.dropTrailing_reverse_append, hdrop]

theorem splitName_eq (h : LastName text before name after) : splitName text = (before, name) := by
  have hname : ∀ c ∈ name.reverse, (c != '/') = true := by
    intro c hc
    simpa using ne_of_mem_of_not_mem (List.mem_reverse.mp hc) h.no_slash
  have hdrop : before.reverse.dropWhile (· != '/') = before.reverse := by
    rcases before_cases h.before_end with rfl | ⟨front, rfl⟩ <;> simp
  have htake : before.reverse.takeWhile (· != '/') = [] := by
    rcases before_cases h.before_end with rfl | ⟨front, rfl⟩ <;> simp
  unfold splitName
  simp [h.dropTrailing_reverse, List.dropWhile_append_of_pos hname,
    List.takeWhile_append_of_pos hname, hdrop, htake]

theorem splitFileName?_eq (h : LastName text before name after) (hup : name ≠ ['.', '.']) :
    splitFileName? text = some (before, name) := by
  unfold splitFileName?
  simp [h.splitName_eq, isFileName_iff.mpr ⟨h.ne_nil, h.ne_here, hup⟩]

/-- What stands before the last name is the directory that it is in. -/
theorem parent?_eq (h : LastName text before name after) :
    parent? ⟨String.ofList text⟩ = some ⟨String.ofList before⟩ := by
  unfold parent?
  simp [h.splitName_eq, h.ne_nil]

end LastName

/-- A text is cut behind its last slash, if there is one. -/
theorem cut_behind_slash (reversed : List Char) :
    ∃ before name, before = (reversed.dropWhile (· != '/')).reverse ∧
      name = (reversed.takeWhile (· != '/')).reverse ∧ reversed.reverse = before ++ name ∧
      (∀ c ∈ before.getLast?, c = '/') ∧ '/' ∉ name := by
  refine ⟨_, _, rfl, rfl, ?_, ?_, ?_⟩
  · rw [← List.reverse_append, List.takeWhile_append_dropWhile]
  · intro c hc
    have hhead := List.head?_dropWhile_not (· != '/') reversed
    simp_all
  · intro hslash
    simpa using List.mem_takeWhile_imp (List.mem_reverse.mp hslash)

/-- Where there is a file name, it is the last name of the path. -/
theorem exists_lastName {text before name : List Char}
    (h : splitFileName? text = some (before, name)) :
    name ≠ ['.', '.'] ∧ ∃ after, LastName text before name after := by
  obtain ⟨after, hafter, htext⟩ := exists_isTrailing text.reverse
  obtain ⟨front, last, hfront, hlast, hrest, hend, hslash⟩ :=
    cut_behind_slash (dropTrailing text.reverse)
  unfold splitFileName? splitName at h
  dsimp only at h
  rw [← hfront, ← hlast] at h
  split at h
  · rename_i hname
    obtain ⟨rfl, rfl⟩ : front = before ∧ last = name := by simpa using h
    obtain ⟨hnil, hhere, hup⟩ := isFileName_iff.mp hname
    have hparts : text = front ++ last ++ after := by
      rw [← hrest]
      simpa using congrArg List.reverse htext
    exact ⟨hup, after, hparts, hend, hslash, hnil, hhere, hafter⟩
  · cases h

/-! ## Components -/

theorem splitOn_append_slash (a b : List Char) :
    splitOn '/' (a ++ '/' :: b) = splitOn '/' a ++ splitOn '/' b := by
  induction a with
  | nil => simp [consPart]
  | cons c a ih =>
    obtain ⟨part, parts, hparts⟩ := List.exists_cons_of_ne_nil (Text.splitOn_ne_nil '/' a)
    simp only [List.cons_append, Text.splitOn_cons, ih, hparts]
    by_cases hc : c = '/' <;> simp [consPart, hc]

/-- A text without slashes is the start of the first part of what it stands in front of. -/
theorem splitOn_append_of_no_slash {a b part : List Char} {parts : List (List Char)}
    (ha : '/' ∉ a) (hb : splitOn '/' b = part :: parts) :
    splitOn '/' (a ++ b) = (a ++ part) :: parts := by
  induction a with
  | nil => exact hb
  | cons c a ih =>
    obtain ⟨hc, ha⟩ := not_or.mp (mt List.mem_cons.mpr ha)
    simp [ih ha, consPart, Ne.symm hc]

/-- The components that a path has before its last name. -/
def frontComponents (before : List Char) : List Component :=
  match splitOn '/' before.dropLast with
  | [] => []
  | first :: rest =>
    if before = [] then []
    else (if first.isEmpty then some .root else firstComponent? first).toList ++
      rest.filterMap component?

/-- The last component of a path is its last name. -/
theorem LastName.components_eq {text before name after : List Char}
    (h : LastName text before name after) :
    components ⟨String.ofList text⟩ = frontComponents before ++ (component? name).toList := by
  obtain ⟨rest, hafter, hrest⟩ := h.after.exists_splitOn
  have hname : splitOn '/' (name ++ after) = name :: rest := by
    simpa using splitOn_append_of_no_slash h.no_slash hafter
  rcases before_cases h.before_end with rfl | ⟨front, rfl⟩
  · have hfirst : firstComponent? name = component? name := if_neg h.ne_here
    simp [components, frontComponents, h.text_eq, hname, h.ne_nil, hfirst, hrest]
  · obtain ⟨first, parts, hparts⟩ := List.exists_cons_of_ne_nil (Text.splitOn_ne_nil '/' front)
    have htext : splitOn '/' text = first :: (parts ++ name :: rest) := by
      have happend := splitOn_append_slash front (name ++ after)
      rw [hname, hparts] at happend
      simpa [h.text_eq] using happend
    have hlast : (name :: rest).filterMap component? = (component? name).toList := by
      cases hcomponent : component? name <;> simp [hcomponent, hrest]
    simp [components, frontComponents, htext, hparts, hlast, List.filterMap_append]

/-- A last name is a component of its own. -/
theorem LastName.component?_eq {text before name after : List Char}
    (h : LastName text before name after) :
    component? name = some (if name = ['.', '.'] then .up else .name name) := by
  unfold component?
  simp only [h.ne_nil, h.ne_here, or_self, if_false]
  split <;> rfl

/-- Two paths with the same text before their last names are the same path if these names are the
same. -/
theorem LastName.same_iff {text other before name name' after after' : List Char}
    (h : LastName text before name after) (h' : LastName other before name' after') :
    same ⟨String.ofList text⟩ ⟨String.ofList other⟩ ↔ name = name' := by
  rw [same, h.components_eq, h'.components_eq, beq_iff_eq, List.append_cancel_left_eq,
    h.component?_eq, h'.component?_eq]
  by_cases hup : name = ['.', '.'] <;> by_cases hup' : name' = ['.', '.'] <;>
    simp [hup, hup', eq_comm]

end SequenceXmi.Path
