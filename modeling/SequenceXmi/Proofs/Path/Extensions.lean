import SequenceXmi.Proofs.Path.FileNames

/-! # Paths with another extension

A path gets another extension in two steps: as many bytes as the old extension has are cut off its
end, and what is then the file name gets the new one. If slashes end the path, the cut takes them
and only a part of the extension, or none of it; what is left of the name has the same stem
(`LastName.cut`). So the stem is kept, and the new extension follows it (`withExtension_eq`).

The one name that does not stand the cut is a dot with an extension at the very end of the path: two
dots are left, which are no file name, and get no extension (`EndsInDots.withExtension_eq`). -/

namespace SequenceXmi.Path

open Text (byteLength byteLength_cons byteLength_append)

/-! ## Stem and extension -/

/-- A name is cut at its last dot. -/
theorem splitExtension_append {stem extension : List Char} (hstem : stem ≠ [])
    (hdot : '.' ∉ extension) :
    splitExtension (stem ++ '.' :: extension) = (stem, some extension) := by
  have hextension : ∀ c ∈ extension.reverse, (c != '.') = true := by
    intro c hc
    simpa using ne_of_mem_of_not_mem (List.mem_reverse.mp hc) hdot
  unfold splitExtension
  simp [List.dropWhile_append_of_pos hextension, List.takeWhile_append_of_pos hextension, hstem]

/-- A name is its own stem, or it has a stem and an extension. -/
theorem splitExtension_cases (name : List Char) :
    splitExtension name = (name, none) ∨
      ∃ stem extension, name = stem ++ '.' :: extension ∧ stem ≠ [] ∧ '.' ∉ extension := by
  have hname := name.reverse.takeWhile_append_dropWhile (p := (· != '.'))
  have hhead := List.head?_dropWhile_not (· != '.') name.reverse
  cases hdrop : name.reverse.dropWhile (· != '.') with
  | nil => exact .inl (by simp [splitExtension, hdrop])
  | cons c stem =>
    obtain rfl : c = '.' := by simpa [hdrop] using hhead
    cases stem with
    | nil => exact .inl (by simp [splitExtension, hdrop])
    | cons d stem =>
      refine .inr ⟨(d :: stem).reverse, (name.reverse.takeWhile (· != '.')).reverse, ?_, by simp,
        ?_⟩
      · have hreverse := congrArg List.reverse hname
        simpa [hdrop] using hreverse.symm
      · intro hdot
        simpa using List.mem_takeWhile_imp (List.mem_reverse.mp hdot)

theorem splitExtension_fst_ne_nil {name : List Char} (h : name ≠ []) :
    (splitExtension name).1 ≠ [] := by
  rcases splitExtension_cases name with hplain | ⟨stem, extension, rfl, hstem, hdot⟩
  · simpa [hplain] using h
  · simpa [splitExtension_append hstem hdot] using hstem

theorem splitExtension_fst_isPrefix (name : List Char) : (splitExtension name).1 <+: name := by
  rcases splitExtension_cases name with hplain | ⟨stem, extension, rfl, hstem, hdot⟩
  · simp [hplain]
  · simp [splitExtension_append hstem hdot]

/-- The extension of a name, after its stem and a dot, makes the name. -/
theorem splitExtension_snd_eq_some_iff {name extension : List Char} :
    (splitExtension name).2 = some extension ↔
      (splitExtension name).1 ++ '.' :: extension = name := by
  rcases splitExtension_cases name with h | ⟨stem, old, rfl, hstem, hold⟩
  · simp [h]
  · simp [splitExtension_append hstem hold, eq_comm]

/-- A stem before a dot makes two dots only if it is a dot. -/
theorem eq_dot_of_append_eq {stem extension : List Char} (hstem : stem ≠ [])
    (h : stem ++ '.' :: extension = ['.', '.']) : stem = ['.'] ∧ extension = [] := by
  match stem with
  | [] => exact absurd rfl hstem
  | [c] => simpa using h
  | _ :: _ :: _ => simp at h

section

variable {text before name after : List Char}

theorem LastName.fileStem?_eq (h : LastName text before name after) (hup : name ≠ ['.', '.']) :
    fileStem? ⟨String.ofList text⟩ = some (String.ofList (splitExtension name).1) := by
  unfold fileStem?
  simp [h.splitFileName?_eq hup]

theorem LastName.extension?_eq (h : LastName text before name after) (hup : name ≠ ['.', '.']) :
    extension? ⟨String.ofList text⟩ = (splitExtension name).2.map String.ofList := by
  unfold extension?
  simp [h.splitFileName?_eq hup]

theorem LastName.setExtension_eq (h : LastName text before name after) (hup : name ≠ ['.', '.'])
    (extension : List Char) :
    setExtension text extension = before ++ (splitExtension name).1 ++ '.' :: extension := by
  unfold setExtension
  simp [h.splitFileName?_eq hup]

end

/-! ## Cutting bytes off -/

theorem byteLength_reverse (text : List Char) : byteLength text.reverse = byteLength text := by
  induction text with
  | nil => rfl
  | cons c text ih => simp [ih, Nat.add_comm]

theorem dropBytesUpTo_zero (text : List Char) : dropBytesUpTo 0 text = text := by
  cases text with
  | nil => rfl
  | cons c text => simp [dropBytesUpTo, Nat.ne_of_gt c.utf8Size_pos]

/-- Bytes are cut off what stands first, and nothing is left of it only if it has no more bytes than
that. -/
theorem dropBytesUpTo_append {n : Nat} {a : List Char} (h : n ≤ byteLength a) (b : List Char) :
    ∃ rest, rest <:+ a ∧ dropBytesUpTo n (a ++ b) = rest ++ b ∧ (rest = [] ↔ n = byteLength a) := by
  induction a generalizing n with
  | nil =>
    obtain rfl : n = 0 := Nat.le_zero.mp h
    exact ⟨[], List.nil_suffix, dropBytesUpTo_zero b, by simp⟩
  | cons c a ih =>
    rw [byteLength_cons] at h
    by_cases hc : c.utf8Size ≤ n
    · obtain ⟨rest, hrest, hdrop, hnil⟩ := ih (n := n - c.utf8Size) (by omega)
      refine ⟨rest, hrest.trans (List.suffix_cons c a), ?_, ?_⟩
      · rw [List.cons_append, dropBytesUpTo, if_pos hc, hdrop]
      · rw [hnil, byteLength_cons]
        omega
    · refine ⟨c :: a, List.suffix_rfl, by rw [List.cons_append, dropBytesUpTo, if_neg hc], ?_⟩
      simp
      omega

/-- Of an extension and what stands after the name, a part is left: all of it but as many bytes as
the extension has. -/
theorem exists_kept (front extension after : List Char) :
    ∃ kept, kept <+: extension ++ after ∧ (kept = [] ↔ after = []) ∧
      (dropBytesUpTo (byteLength extension) (front ++ (extension ++ after)).reverse).reverse =
        front ++ kept := by
  have hle : byteLength extension ≤ byteLength (extension ++ after).reverse := by
    simp [byteLength_reverse]
  obtain ⟨rest, hrest, hdrop, hnil⟩ := dropBytesUpTo_append hle front.reverse
  refine ⟨rest.reverse, ?_, ?_, ?_⟩
  · simpa using List.reverse_prefix.mpr hrest
  · rw [List.reverse_eq_nil_iff, hnil, byteLength_reverse, byteLength_append]
    cases after with
    | nil => simp
    | cons c after => simp [Nat.ne_of_gt c.utf8Size_pos]
  · rw [List.reverse_append, hdrop]
    simp

/-! ## Another extension -/

/-- A path ends in a file name that is a dot with an extension: the stem is the first of two
dots. -/
structure EndsInDots (text before extension : List Char) : Prop where
  lastName : LastName text before ('.' :: '.' :: extension) []
  ne_nil : extension ≠ []
  no_dot : '.' ∉ extension

section

variable {text before name after stem extension : List Char}

/-- A name whose extension is cut has the same stem. -/
theorem LastName.cut (h : LastName text before (stem ++ '.' :: extension) after) (hstem : stem ≠ [])
    {kept : List Char} (hkept : kept <+: extension ++ after) :
    ∃ part rest, part <+: extension ∧ (part = [] → kept = [] ∨ extension = []) ∧
      LastName (before ++ stem ++ '.' :: kept) before (stem ++ '.' :: part) rest := by
  have hname {part : List Char} (hpart : part <+: extension) : '/' ∉ stem ++ '.' :: part := by
    intro hslash
    refine h.no_slash ?_
    obtain ⟨cut, rfl⟩ := hpart
    simp only [List.mem_append, List.mem_cons] at hslash ⊢
    exact hslash.imp_right (Or.imp_right Or.inl)
  have hlast {part rest : List Char} (hpart : part <+: extension) (hrest : IsTrailing rest) :
      LastName (before ++ stem ++ '.' :: (part ++ rest)) before (stem ++ '.' :: part) rest :=
    { text_eq := by simp
      before_end := h.before_end
      no_slash := hname hpart
      ne_nil := by simp
      ne_here := by simp [List.append_eq_cons_iff, hstem]
      after := hrest }
  rcases List.prefix_or_prefix_of_prefix hkept (List.prefix_append extension after) with
    hpart | ⟨rest, rfl⟩
  · exact ⟨kept, [], hpart, .inl, by simpa using hlast hpart .nil⟩
  · have hrest : rest <+: after := (List.prefix_append_right_inj extension).mp hkept
    have hrestLast := hlast List.prefix_rfl (h.after.of_isPrefix hrest)
    exact ⟨extension, rest, List.prefix_rfl, .inr, hrestLast⟩

/-- The stem of a last name with another extension is a last name. -/
theorem LastName.withNewExtension (h : LastName text before name after) {new : List Char}
    (hnew : '/' ∉ new) :
    LastName (before ++ (splitExtension name).1 ++ '.' :: new) before
      ((splitExtension name).1 ++ '.' :: new) [] where
  text_eq := by simp
  before_end := h.before_end
  no_slash := by
    have hstem : '/' ∉ (splitExtension name).1 :=
      fun hmem => h.no_slash ((splitExtension_fst_isPrefix name).subset hmem)
    simp [hstem, hnew]
  ne_nil := by simp
  ne_here := by simp [List.append_eq_cons_iff, splitExtension_fst_ne_nil h.ne_nil]
  after := .nil

/-- The text of a path from whose end its extension has been cut. -/
theorem LastName.withExtension_text (h : LastName text before (stem ++ '.' :: extension) after)
    (hup : stem ++ '.' :: extension ≠ ['.', '.']) (hstem : stem ≠ []) (hdot : '.' ∉ extension)
    (new : String) :
    ∃ kept, kept <+: extension ++ after ∧ (kept = [] ↔ after = []) ∧
      withExtension ⟨String.ofList text⟩ new =
        ⟨String.ofList (setExtension (before ++ stem ++ '.' :: kept) new.toList)⟩ := by
  obtain ⟨kept, hkept, hnil, hdrop⟩ := exists_kept (before ++ stem ++ ['.']) extension after
  refine ⟨kept, hkept, hnil, ?_⟩
  have htext : before ++ stem ++ ['.'] ++ (extension ++ after) = text := by simp [h.text_eq]
  rw [htext] at hdrop
  unfold withExtension
  simp [h.extension?_eq hup, splitExtension_append hstem hdot, hdrop]

/-- The new extension follows the stem, unless this is a dot before an extension at the end of the
path. -/
theorem LastName.withExtension_eq (h : LastName text before name after) (hup : name ≠ ['.', '.'])
    (hdots : ∀ extension, ¬ EndsInDots text before extension) (new : String) :
    withExtension ⟨String.ofList text⟩ new =
      ⟨String.ofList (before ++ (splitExtension name).1 ++ '.' :: new.toList)⟩ := by
  rcases splitExtension_cases name with hplain | ⟨stem, extension, rfl, hstem, hdot⟩
  · unfold withExtension
    simp [h.extension?_eq hup, hplain, h.setExtension_eq hup]
  · obtain ⟨kept, hkept, hnil, hwith⟩ := h.withExtension_text hup hstem hdot new
    obtain ⟨part, rest, hpart, hempty, hlast⟩ := h.cut hstem hkept
    have hdotPart : '.' ∉ part := fun hmem => hdot (hpart.subset hmem)
    have hupPart : stem ++ '.' :: part ≠ ['.', '.'] := by
      intro hname
      obtain ⟨rfl, rfl⟩ := eq_dot_of_append_eq hstem hname
      -- Of the extension nothing is left, so nothing stood after it.
      have hne : extension ≠ [] := fun hnone => hup (by simp [hnone])
      obtain rfl := hnil.mp ((hempty rfl).resolve_right hne)
      exact hdots extension ⟨h, hne, hdot⟩
    rw [hwith, hlast.setExtension_eq hupPart, splitExtension_append hstem hdotPart,
      splitExtension_append hstem hdot]

theorem not_endsInDots (h : (splitName text).2.take 2 ≠ ['.', '.']) (before extension : List Char) :
    ¬ EndsInDots text before extension := by
  intro hends
  rw [hends.lastName.splitName_eq] at h
  exact h rfl

/-- Where a path ends in a dot with an extension, it can as well end in two dots. -/
theorem EndsInDots.lastName_dots (h : EndsInDots text before extension) :
    LastName (before ++ ['.', '.']) before ['.', '.'] [] where
  text_eq := by simp
  before_end := h.lastName.before_end
  no_slash := by simp
  ne_nil := by simp
  ne_here := by simp
  after := .nil

/-- Two dots are no file name. -/
theorem EndsInDots.splitFileName?_dots (h : EndsInDots text before extension) :
    splitFileName? (before ++ ['.', '.']) = none := by
  unfold splitFileName?
  rw [h.lastName_dots.splitName_eq]
  rfl

/-- A dot with an extension at the end of a path is left as two dots. -/
theorem EndsInDots.withExtension_eq (h : EndsInDots text before extension) (new : String) :
    withExtension ⟨String.ofList text⟩ new = ⟨String.ofList (before ++ ['.', '.'])⟩ := by
  have hlast : LastName text before (['.'] ++ '.' :: extension) [] := h.lastName
  obtain ⟨kept, -, hnil, hwith⟩ :=
    hlast.withExtension_text (by simp [h.ne_nil]) (by simp) h.no_dot new
  obtain rfl := hnil.mpr rfl
  have hdots : before ++ ['.'] ++ ['.'] = before ++ ['.', '.'] := by simp
  rw [hwith, hdots, setExtension, h.splitFileName?_dots]

end

/-- A path without a file name gets no extension. -/
theorem withExtension_eq_self {p : Path} (h : p.fileStem? = none) (new : String) :
    p.withExtension new = p := by
  have hsplit : splitFileName? p.text.toList = none := by simpa [fileStem?] using h
  unfold withExtension extension? setExtension
  simp [hsplit]

end SequenceXmi.Path
