import Mathlib.Tactic.SplitIfs
import SequenceXmi.World

/-! # Trees under changes

What a change at one place leaves of a tree. A path passes through directories only, so it leads to
the same place in any two trees of the same directories (`SameDirectories`), whatever files they
hold. A new file has a place of its own: to put it there and to take it away again changes
nothing. -/

namespace SequenceXmi.FileTree

/-! ## Unused places -/

/-- A name of the tree is shorter than the unused one. -/
theorem length_lt_unusedName (t : FileTree) {n : Location × Node} (h : n ∈ t.nodes) :
    (n.1.getLastD "").length < t.unusedName.length := by
  let lengths := t.nodes.map fun n => (n.1.getLastD "").length
  have hmem : (n.1.getLastD "").length ∈ lengths := List.mem_map.mpr ⟨n, h, rfl⟩
  have hunused : lengths.foldl max 0 < t.unusedName.length := by
    simp only [unusedName, String.length_ofList, List.length_append, List.length_replicate]
    exact Nat.lt_add_left _ (Nat.lt_succ_self _)
  calc (n.1.getLastD "").length
    _ ≤ lengths.max?.getD 0 := List.le_max?_getD_of_mem hmem
    _ ≤ max 0 (lengths.max?.getD 0) := Nat.le_max_right ..
    _ = lengths.foldl max 0 := List.foldl_max.symm
    _ < t.unusedName.length := hunused

/-- No place of the tree has the unused name. -/
theorem unusedName_not_mem (t : FileTree) (directory : Location) (node : Node) :
    (directory ++ [t.unusedName], node) ∉ t.nodes := fun h => by
  simpa using t.length_lt_unusedName h

/-- The tree does not list a place. -/
def Unused (t : FileTree) (place : Location) : Prop := ∀ n ∈ t.nodes, n.1 ≠ place

theorem unused_unusedName (t : FileTree) (directory : Location) :
    t.Unused (directory ++ [t.unusedName]) := fun n hn he =>
  t.unusedName_not_mem directory n.2 (he ▸ hn)

theorem Unused.node?_eq_none {t : FileTree} {place : Location} (h : t.Unused place)
    (hroot : place ≠ []) : t.node? place = none := by
  simp only [node?, if_neg hroot, List.lookup_eq_none_iff]
  exact fun n hn => by simpa using (h n hn).symm

/-- To take away what was put at an unused place gives the tree back. -/
theorem Unused.erase_put {t : FileTree} {place : Location} (h : t.Unused place) (node : Node) :
    (t.put place node).erase place = t := by
  have hkeep : t.nodes.filter (·.1 != place) = t.nodes :=
    List.filter_eq_self.mpr fun n hn => by simpa using h n hn
  simp [put, erase, hkeep]

/-- What was put at a place first does not matter. -/
theorem put_put (t : FileTree) (place : Location) (first second : Node) :
    (t.put place first).put place second = t.put place second := by
  simp [put, erase]

/-! ## Trees of the same directories -/

/-- Two trees have the same directories and start relative paths from the same one. -/
structure SameDirectories (t u : FileTree) : Prop where
  working : t.working = u.working
  iff : ∀ place, t.node? place = some .directory ↔ u.node? place = some .directory

namespace SameDirectories

variable {t u : FileTree}

theorem symm (h : SameDirectories t u) : SameDirectories u t :=
  ⟨h.working.symm, fun place => (h.iff place).symm⟩

/-- A file in a place that is no directory leaves the directories. -/
theorem put_file {place : Location} (h : t.node? place ≠ some .directory) (bytes : ByteArray) :
    SameDirectories t (t.put place (.file bytes)) where
  working := rfl
  iff other := by
    by_cases he : other = place
    · subst he
      have hroot : other ≠ [] := fun hroot => h (by simp [node?, hroot])
      simp [h, node?_put_self t _ hroot]
    · rw [node?_put_ne t _ he]

end SameDirectories

/-! ## Where paths lead -/

/-- A name is followed from a directory only. -/
theorem node?_of_follow_cons {t : FileTree} {place result : Location} {name : String}
    {rest : List String} (h : t.follow place (name :: rest) = .ok result) :
    t.node? place = some .directory := by
  unfold follow at h
  split at h
  · cases h
  · cases h
  · assumption

/-- Names are followed one after another. -/
theorem follow_append (t : FileTree) (place : Location) (front back : List String) :
    t.follow place (front ++ back) = t.follow place front >>= fun p => t.follow p back := by
  induction front generalizing place with
  | nil => rfl
  | cons name front ih =>
    simp only [List.cons_append, follow]
    split
    · rfl
    · rfl
    · split_ifs
      · exact ih place
      · exact ih place.dropLast
      · rfl
      · exact ih (place ++ [name])

/-- A path leads to a place if it is a path at all and its names lead there. -/
theorem locate_eq_ok_iff {t : FileTree} {path : Path} {place : Location} :
    t.locate path = .ok place ↔
      check path = .ok () ∧ t.follow (t.origin path) (names path) = .ok place := by
  unfold locate
  cases check path <;> simp [bind, Except.bind]

/-- A path leads to a file if it leads to its place. -/
theorem content_eq_ok_iff {t : FileTree} {path : Path} {bytes : ByteArray} :
    t.content path = .ok bytes ↔
      ∃ place, t.locate path = .ok place ∧ t.node? place = some (.file bytes) := by
  unfold content at?
  cases t.locate path with
  | error fault => simp [bind, Except.bind]
  | ok place =>
    cases hnode : t.node? place with
    | none => simp [bind, Except.bind, throw, throwThe, MonadExceptOf.throw, hnode]
    | some node =>
      cases node <;>
        simp [bind, Except.bind, throw, throwThe, MonadExceptOf.throw, pure, Except.pure, hnode]

/-- A path names a file in a directory: its last name is a proper name, and no directory has it. -/
structure NamesFile (t : FileTree) (path : Path) (parent : Location) (last : String) : Prop where
  /-- The names before the last one lead to the directory. -/
  leads : ∃ before, names path = before ++ [last] ∧ t.follow (t.origin path) before = .ok parent
  parent_directory : t.node? parent = some .directory
  not_empty : last ≠ ""
  not_dots : ¬ (last = "." ∨ last = "..")
  fits : isTooLong last = false
  not_directory : t.node? (parent ++ [last]) ≠ some .directory

/-- A list from whose end no empty text can be dropped ends in another text. -/
theorem eq_concat_of_dropWhile_reverse {all before : List String} {last : String}
    (h : all.reverse.dropWhile (· = "") = last :: before)
    (hlength : (last :: before).length = all.length) :
    all = before.reverse ++ [last] ∧ last ≠ "" := by
  have hsuffix : last :: before <:+ all.reverse := h ▸ List.dropWhile_suffix _
  have hreverse : last :: before = all.reverse := hsuffix.eq_of_length (by simpa using hlength)
  have hhead := List.head?_dropWhile_not (· = "") all.reverse
  rw [h] at hhead
  constructor
  · rw [← List.reverse_cons, hreverse, List.reverse_reverse]
  · simpa using hhead

/-- A file can be moved to a path that names a file in a directory, and to no other path. -/
theorem target_eq_ok_iff {t : FileTree} {path : Path} {place : Location} :
    t.target path = .ok place ↔
      check path = .ok () ∧
        ∃ parent last, t.NamesFile path parent last ∧ place = parent ++ [last] := by
  unfold target
  cases hcheck : check path with
  | error fault => simp [bind, Except.bind]
  | ok _ =>
    simp only [bind, Except.bind]
    constructor
    · intro h
      split at h
      · cases h
      · rename_i last before htrimmed
        cases hfollow : t.follow (t.origin path) before.reverse with
        | error fault => simp [hfollow] at h
        | ok parent =>
          simp only [hfollow] at h
          split at h
          · cases h
          · cases h
          · rename_i hparent
            split_ifs at h with hdots hlong hlength
            have hlength : (last :: before).length = (names path).length := by
              rw [← htrimmed]; exact Decidable.not_not.mp hlength
            obtain ⟨hnames, hempty⟩ := eq_concat_of_dropWhile_reverse htrimmed hlength
            split at h
            · cases h
            · rename_i hnode
              cases h
              exact ⟨trivial, parent, last, ⟨⟨_, hnames, hfollow⟩, hparent, hempty, hdots,
                by simpa using hlong, fun hd => hnode hd⟩, rfl⟩
    · rintro ⟨-, parent, last, hfile, rfl⟩
      obtain ⟨before, hnames, hfollow⟩ := hfile.leads
      have htrimmed : (names path).reverse.dropWhile (· = "") = last :: before.reverse := by
        simp [hnames, hfile.not_empty]
      have hlength : (last :: before.reverse).length = (names path).length := by simp [hnames]
      simp only [htrimmed, List.reverse_reverse, hfollow, hfile.parent_directory,
        if_neg hfile.not_dots, hfile.fits, hlength, ne_eq, not_true_eq_false, Bool.false_eq_true,
        if_false]
      split
      · rename_i hnode
        exact absurd hnode hfile.not_directory
      · rfl

/-- A file that is moved to a path is found there. -/
theorem locate_of_target {t : FileTree} {path : Path} {place : Location}
    (h : t.target path = .ok place) : t.locate path = .ok place := by
  obtain ⟨hcheck, parent, last, hfile, rfl⟩ := target_eq_ok_iff.mp h
  obtain ⟨before, hnames, hfollow⟩ := hfile.leads
  obtain ⟨hhere, hup⟩ := not_or.mp hfile.not_dots
  refine locate_eq_ok_iff.mpr ⟨hcheck, ?_⟩
  rw [hnames, follow_append, hfollow]
  simp [bind, Except.bind, follow, hfile.parent_directory, hfile.not_empty, hhere, hup, hfile.fits]

/-- A file can be moved to places where no directory is. -/
theorem node?_of_target {t : FileTree} {path : Path} {place : Location}
    (h : t.target path = .ok place) : t.node? place ≠ some .directory := by
  obtain ⟨-, parent, last, hfile, rfl⟩ := target_eq_ok_iff.mp h
  exact hfile.not_directory

namespace SameDirectories

variable {t u : FileTree}

/-- Names lead to the same place. -/
theorem follow_ok (h : SameDirectories t u) {place result : Location} {names : List String}
    (ht : t.follow place names = .ok result) : u.follow place names = .ok result := by
  induction names generalizing place with
  | nil => exact ht
  | cons name rest ih =>
    have hdirectory := node?_of_follow_cons ht
    simp only [follow, hdirectory] at ht
    simp only [follow, (h.iff place).mp hdirectory]
    split_ifs at ht ⊢ with hempty hup hlong
    · exact ih ht
    · exact ih ht
    · exact ih ht

theorem origin_eq (h : SameDirectories t u) (path : Path) : u.origin path = t.origin path := by
  simp [origin, h.working]

/-- A path leads to the same place. -/
theorem locate_ok (h : SameDirectories t u) {path : Path} {place : Location}
    (ht : t.locate path = .ok place) : u.locate path = .ok place := by
  obtain ⟨hcheck, hfollow⟩ := locate_eq_ok_iff.mp ht
  exact locate_eq_ok_iff.mpr ⟨hcheck, h.origin_eq path ▸ h.follow_ok hfollow⟩

theorem namesFile (h : SameDirectories t u) {path : Path} {parent : Location} {last : String}
    (ht : t.NamesFile path parent last) : u.NamesFile path parent last where
  leads := by
    obtain ⟨before, hnames, hfollow⟩ := ht.leads
    exact ⟨before, hnames, h.origin_eq path ▸ h.follow_ok hfollow⟩
  parent_directory := (h.iff parent).mp ht.parent_directory
  not_empty := ht.not_empty
  not_dots := ht.not_dots
  fits := ht.fits
  not_directory hd := ht.not_directory ((h.iff _).mpr hd)

/-- A file can be moved to the same place. -/
theorem target_ok (h : SameDirectories t u) {path : Path} {place : Location}
    (ht : t.target path = .ok place) : u.target path = .ok place := by
  obtain ⟨hcheck, parent, last, hfile, rfl⟩ := target_eq_ok_iff.mp ht
  exact target_eq_ok_iff.mpr ⟨hcheck, parent, last, h.namesFile hfile, rfl⟩

end SameDirectories

/-! ## Files after a change -/

/-- What a path leads to is what there is at its place. -/
theorem toOption_at? (t : FileTree) (path : Path) :
    (t.at? path).toOption = (t.locate path).toOption.bind t.node? := by
  unfold at?
  cases t.locate path with
  | error fault => rfl
  | ok place =>
    cases hnode : t.node? place with
    | none => simp [bind, Except.bind, throw, throwThe, MonadExceptOf.throw, hnode, Except.toOption]
    | some node => simp [bind, Except.bind, pure, Except.pure, hnode, Except.toOption]

/-- The same paths lead somewhere in trees of the same directories. -/
theorem SameDirectories.toOption_locate {t u : FileTree} (h : SameDirectories t u) (path : Path) :
    (u.locate path).toOption = (t.locate path).toOption := by
  cases ht : t.locate path with
  | ok place => rw [h.locate_ok ht]
  | error fault =>
    cases hu : u.locate path with
    | error fault' => rfl
    | ok place =>
      have hback := h.symm.locate_ok hu
      rw [ht] at hback
      cases hback

/-- A path that does not lead to the changed file leads to what it led to. -/
theorem toOption_at?_put {t : FileTree} {path : Path} {changed : Location}
    (hchanged : t.node? changed ≠ some .directory) (hpath : t.locate path ≠ .ok changed)
    (bytes : ByteArray) :
    ((t.put changed (.file bytes)).at? path).toOption = (t.at? path).toOption := by
  rw [toOption_at?, toOption_at?, (SameDirectories.put_file hchanged bytes).toOption_locate]
  cases ht : t.locate path with
  | error fault => rfl
  | ok place =>
    have hother : place ≠ changed := by
      rintro rfl
      exact hpath ht
    exact node?_put_ne t _ hother

/-- A path to a file leads to the new content after a change of that file, and to the old content
after a change of another. -/
theorem content_put {t : FileTree} {path : Path} {place changed : Location} {old : ByteArray}
    (hplace : t.locate path = .ok place) (hnode : t.node? place = some (.file old))
    (hchanged : t.node? changed ≠ some .directory) (new : ByteArray) :
    (t.put changed (.file new)).content path = .ok (if changed = place then new else old) := by
  have hlocate := (SameDirectories.put_file hchanged new).locate_ok hplace
  refine content_eq_ok_iff.mpr ⟨place, hlocate, ?_⟩
  by_cases he : changed = place
  · subst he
    have hroot : changed ≠ [] := fun hroot => hchanged (by simp [node?, hroot])
    rw [node?_put_self t _ hroot, if_pos rfl]
  · rw [node?_put_ne t _ (Ne.symm he), hnode, if_neg he]

end SequenceXmi.FileTree
