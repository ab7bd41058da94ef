import SequenceXmi.Proofs.CommandLine.Lookup
import SequenceXmi.Proofs.Path.Extensions

/-! # Where the document of a diagram goes

Without arguments for it, a document goes beside its diagram, under the stem of its file name, which
is also the name of the interaction (`Fits`). A path without a file name is left as it is. The path
falls short of this for a diagram whose name is a dot with an extension, such as `..txt`: its
document would go to the directory above (`LeavesDots`).

Since a path is the one of the diagram only if both have the same extension, the command refuses to
write over its diagram only if that has the extension of a document. Here files matter too: a path
that can be read ends in a file name (`FileTree.exists_lastName_of_content`).

Main result: `outputPath_derived`. -/

namespace SequenceXmi

/-! ## Paths that can be read -/

namespace FileTree

variable {t : FileTree}

/-- Whatever there is in a tree is in a directory. -/
def Rooted (t : FileTree) : Prop :=
  ∀ place name, (t.node? (place ++ [name])).isSome → t.node? place = some .directory

theorem Rooted.dropLast (hrooted : t.Rooted) {place : Location}
    (h : t.node? place = some .directory) : t.node? place.dropLast = some .directory := by
  rcases List.eq_nil_or_concat place with rfl | ⟨front, name, rfl⟩
  · rfl
  · simpa using hrooted front name (by simp_all)

/-- A name that is no name of its own leads from a directory to a directory. -/
theorem Rooted.node?_of_follow (hrooted : t.Rooted) {place result : Location} {name : List Char}
    (hname : name = [] ∨ name = ['.'] ∨ name = ['.', '.'])
    (h : t.follow place [String.ofList name] = .ok result) :
    t.node? result = some .directory := by
  have hplace := node?_of_follow_cons h
  unfold follow at h
  rw [hplace] at h
  rcases hname with rfl | rfl | rfl
  · obtain rfl : place = result := by simpa [follow] using h
    exact hplace
  · obtain rfl : place = result := by simpa [follow] using h
    exact hplace
  · obtain rfl : place.dropLast = result := by simpa [follow] using h
    exact hrooted.dropLast hplace

/-- A path to a file ends in the file name. -/
theorem exists_lastName_of_content (hrooted : t.Rooted) {path : Path} {bytes : ByteArray}
    (h : t.content path = .ok bytes) :
    ∃ before name, name ≠ ['.', '.'] ∧ Path.LastName path.text.toList before name [] := by
  obtain ⟨place, hlocate, hnode⟩ := content_eq_ok_iff.mp h
  obtain ⟨-, hfollow⟩ := locate_eq_ok_iff.mp hlocate
  obtain ⟨before, name, -, -, htext, hend, hslash⟩ :=
    Path.cut_behind_slash path.text.toList.reverse
  rw [List.reverse_reverse] at htext
  obtain ⟨front, hnames⟩ : ∃ front, names path = front ++ [String.ofList name] := by
    have hlast : Text.splitOn '/' name = [name] := by
      simpa using Path.splitOn_append_of_no_slash hslash (Text.splitOn_nil '/')
    unfold names
    rw [htext]
    rcases Path.before_cases hend with rfl | ⟨front, rfl⟩
    · exact ⟨[], by simp [hlast]⟩
    · refine ⟨(Text.splitOn '/' front).map String.ofList, ?_⟩
      rw [List.append_assoc, List.singleton_append, Path.splitOn_append_slash, hlast]
      simp
  have hproper : ¬ (name = [] ∨ name = ['.'] ∨ name = ['.', '.']) := by
    intro hname
    rw [hnames, follow_append] at hfollow
    cases hfront : t.follow (t.origin path) front with
    | error fault => simp [hfront, bind, Except.bind] at hfollow
    | ok parent =>
      rw [hfront] at hfollow
      have hdirectory := hrooted.node?_of_follow hname hfollow
      rw [hnode] at hdirectory
      cases hdirectory
  simp only [not_or] at hproper
  obtain ⟨hnil, hhere, hup⟩ := hproper
  exact ⟨before, name, hup, by simpa using htext, hend, hslash, hnil, hhere, .nil⟩

end FileTree

namespace CommandLine

open World (run_throw)

/-! ## Refusing to write over the diagram -/

section

variable {reader : SettingsReader} {user : Option Path} {w : World}

/-- Loading settings fails for other reasons than the output. -/
theorem loadSettings_ne_outputIsInput (config : Option String) (output : String) :
    (w.run (loadSettings reader user config)).1 ≠ .error (.settings (.outputIsInput output)) := by
  obtain ⟨looked, source, hchooses⟩ := exists_chooses w user config
  have houtcome := outcome_checkedSettings reader w source
  rw [run_loadSettings hchooses]
  intro h
  rw [h] at houtcome
  cases houtcome

/-- A run is refused for its output if it has got as far as to write a document, and the document
would go to the path of the diagram. -/
theorem run_outputIsInput_iff (random : IdSupply) (args : Arguments) :
    (∃ output, (w.run (run reader user random args)).1 =
      .error (.settings (.outputIsInput output))) ↔
    (∃ settings, (w.run (loadSettings reader user args.config)).1 = .ok settings) ∧
      (∃ source, w.Reads ⟨args.input⟩ source) ∧ args.dumpModel = false ∧
      args.outputPath.same ⟨args.input⟩ := by
  cases hload : (w.run (loadSettings reader user args.config)).1 with
  | error f =>
    rw [run_of_not_loaded random hload]
    have hother (output : String) : f ≠ .settings (.outputIsInput output) := by
      rintro rfl
      exact loadSettings_ne_outputIsInput _ _ hload
    simp [hother]
  | ok settings =>
    rcases w.run_readText ⟨args.input⟩ with ⟨fault, hread⟩ | ⟨source, hreads, hread⟩
    · rw [run_of_unreadable random hload hread]
      simp [World.not_reads_of_run_readText hread]
    have hsource : ∃ source, w.Reads ⟨args.input⟩ source := ⟨source, hreads⟩
    rw [run_of_readable random hload hread]
    unfold afterReading
    cases hdump : args.dumpModel with
    | true =>
      have hshown (d : Diagram) (v : World) : (v.run (dump d)).1 = .ok () := rfl
      simp [hshown]
    | false =>
      cases hsame : args.outputPath.same ⟨args.input⟩ with
      | true => simp [run_throw, hsource]
      | false =>
        simp only [Bool.false_eq_true, if_false, and_false, iff_false, not_exists]
        intro output hrun
        rcases settings.run_produce random source args.outputPath args.diagramName _ with
          ⟨fault, h⟩ | ⟨u, -, h⟩ | ⟨document, place, -, -, h⟩
        all_goals
          rw [h] at hrun
          cases hrun

end

/-! ## Derived outputs -/

/-- What is derived from the path of a diagram with a file name. -/
structure Fits (args : Arguments) (stem : String) : Prop where
  /-- Document and diagram are in one directory. -/
  parent : args.outputPath.parent? = (Path.mk args.input).parent?
  outputStem : args.outputPath.fileStem? = some stem
  extension : args.outputPath.extension? = some "xmi"
  same : args.outputPath.same ⟨args.input⟩ ↔ (Path.mk args.input).extension? = some "xmi"
  name : args.name = none → args.diagramName = stem

/-- What is derived from the path of a diagram whose file name is a dot with an extension: two dots
in place of this name. They are no file name, and so there is nothing to have an extension. -/
structure LeavesDots (args : Arguments) (before : List Char) : Prop where
  inputStem : (Path.mk args.input).fileStem? = some "."
  output : args.outputPath = ⟨String.ofList (before ++ ['.', '.'])⟩
  noStem : args.outputPath.fileStem? = none
  noExtension : args.outputPath.extension? = none
  differs : args.outputPath.same ⟨args.input⟩ = false
  name : args.name = none → args.diagramName = "."

/-- What the arguments derive from the path of the diagram. -/
structure Derived (args : Arguments) : Prop where
  fits : ∀ stem, (Path.mk args.input).fileStem? = some stem →
    (∀ before extension, ¬ Path.EndsInDots args.input.toList before extension) → Fits args stem
  dots : ∀ before extension, Path.EndsInDots args.input.toList before extension →
    LeavesDots args before
  /-- A path without a file name is left as it is. -/
  nameless : (Path.mk args.input).fileStem? = none →
    args.outputPath = ⟨args.input⟩ ∧
      (args.name = none → args.diagramName = Arguments.fallbackName)
  /-- In a tree where everything is in a directory, a run is refused for its output if and only if
  it comes to writing a document and the diagram has the extension of one. -/
  refused : ∀ reader user random (w : World), w.tree.Rooted →
    ((∃ output, (w.run (run reader user random args)).1 =
        .error (.settings (.outputIsInput output))) ↔
      (∃ settings, (w.run (loadSettings reader user args.config)).1 = .ok settings) ∧
        (∃ source, w.Reads ⟨args.input⟩ source) ∧ args.dumpModel = false ∧
        (Path.mk args.input).extension? = some "xmi" ∧
        ∀ before extension, ¬ Path.EndsInDots args.input.toList before extension)

section

variable {args : Arguments}

/-- The name of an interaction that is not given is the stem of the diagram. -/
theorem diagramName_eq (hname : args.name = none) :
    args.diagramName = ((Path.mk args.input).fileStem?).getD Arguments.fallbackName := by
  unfold Arguments.diagramName
  rw [hname]

theorem outputPath_eq (hout : args.output = none) :
    args.outputPath = (Path.mk args.input).withExtension "xmi" := by
  unfold Arguments.outputPath
  rw [hout]
  rfl

/-- A document goes beside a diagram with a file name, under its stem. -/
theorem fits_of_lastName (hout : args.output = none) {before name after : List Char}
    (h : Path.LastName args.input.toList before name after) (hup : name ≠ ['.', '.'])
    (hdots : ∀ extension, ¬ Path.EndsInDots args.input.toList before extension) :
    Fits args (String.ofList (Path.splitExtension name).1) := by
  have hinput : Path.mk args.input = ⟨String.ofList args.input.toList⟩ := by simp
  have hne := Path.splitExtension_fst_ne_nil h.ne_nil
  have hsplit := Path.splitExtension_append hne (by decide : '.' ∉ "xmi".toList)
  have houtput : args.outputPath =
      ⟨String.ofList (before ++ (Path.splitExtension name).1 ++ '.' :: "xmi".toList)⟩ := by
    rw [outputPath_eq hout, hinput]
    exact h.withExtension_eq hup hdots "xmi"
  have hlast := h.withNewExtension (by decide : '/' ∉ "xmi".toList)
  have hproper : (Path.splitExtension name).1 ++ '.' :: "xmi".toList ≠ ['.', '.'] := by
    intro hname
    have hnone := (Path.eq_dot_of_append_eq hne hname).2
    exact absurd hnone (by decide)
  constructor
  · rw [houtput, hinput, hlast.parent?_eq, h.parent?_eq]
  · rw [houtput, hlast.fileStem?_eq hproper, hsplit]
  · rw [houtput, hlast.extension?_eq hproper, hsplit]
    rfl
  · rw [houtput, hinput, hlast.same_iff h, h.extension?_eq hup,
      ← Path.splitExtension_snd_eq_some_iff]
    simp [Option.map_eq_some_iff, ← String.toList_inj]
  · intro hname
    rw [diagramName_eq hname, hinput, h.fileStem?_eq hup]
    rfl

/-- The document of a diagram whose name is a dot with an extension would go to a directory. -/
theorem leavesDots_of_endsInDots (hout : args.output = none) {before extension : List Char}
    (h : Path.EndsInDots args.input.toList before extension) : LeavesDots args before := by
  have hinput : Path.mk args.input = ⟨String.ofList args.input.toList⟩ := by simp
  have hsplit : Path.splitExtension ('.' :: '.' :: extension) = (['.'], some extension) :=
    Path.splitExtension_append (List.cons_ne_nil '.' []) h.no_dot
  have hproper : '.' :: '.' :: extension ≠ ['.', '.'] := by simp [h.ne_nil]
  have hstem : (Path.mk args.input).fileStem? = some "." := by
    rw [hinput, h.lastName.fileStem?_eq hproper, hsplit]
  have houtput : args.outputPath = ⟨String.ofList (before ++ ['.', '.'])⟩ := by
    rw [outputPath_eq hout, hinput]
    exact h.withExtension_eq "xmi"
  constructor
  · exact hstem
  · exact houtput
  · rw [houtput]
    simp [Path.fileStem?, h.splitFileName?_dots]
  · rw [houtput]
    simp [Path.extension?, h.splitFileName?_dots]
  · rw [houtput, hinput, Bool.eq_false_iff, ne_eq, h.lastName_dots.same_iff h.lastName]
    exact hproper.symm
  · intro hname
    rw [diagramName_eq hname, hstem]
    rfl

/-- The path of a document that is derived is the one of a diagram that can be read if this has the
extension of a document. -/
theorem outputPath_same_iff (hout : args.output = none) {before name : List Char}
    (h : Path.LastName args.input.toList before name []) (hup : name ≠ ['.', '.']) :
    args.outputPath.same ⟨args.input⟩ ↔
      (Path.mk args.input).extension? = some "xmi" ∧
        ∀ before extension, ¬ Path.EndsInDots args.input.toList before extension := by
  by_cases hdots : ∃ before extension, Path.EndsInDots args.input.toList before extension
  · obtain ⟨front, extension, hends⟩ := hdots
    have hdiffers := (leavesDots_of_endsInDots hout hends).differs
    constructor
    · intro hsame
      rw [hdiffers] at hsame
      cases hsame
    · rintro ⟨-, hnone⟩
      exact absurd hends (hnone front extension)
  · simp only [not_exists] at hdots
    rw [(fits_of_lastName hout h hup (hdots before)).same]
    exact (and_iff_left hdots).symm

end

/-- What a command line without an output derives from the path of its diagram, whatever this path
is. -/
theorem outputPath_derived (args : Arguments) (hout : args.output = none) : Derived args where
  fits := by
    intro stem hstem hdots
    obtain ⟨⟨before, name⟩, hsplit, rfl⟩ := Option.map_eq_some_iff.mp hstem
    obtain ⟨hup, after, hlast⟩ := Path.exists_lastName hsplit
    exact fits_of_lastName hout hlast hup (hdots before)
  dots _ _ h := leavesDots_of_endsInDots hout h
  nameless := by
    intro hstem
    refine ⟨?_, fun hname => ?_⟩
    · rw [outputPath_eq hout, Path.withExtension_eq_self hstem]
    · rw [diagramName_eq hname, hstem]
      rfl
  refused := by
    intro reader user random w hrooted
    rw [run_outputIsInput_iff]
    refine and_congr_right fun _ => and_congr_right fun ⟨source, hreads⟩ =>
      and_congr_right fun _ => ?_
    obtain ⟨bytes, hcontent, -⟩ := hreads.content
    obtain ⟨before, name, hup, hlast⟩ := FileTree.exists_lastName_of_content hrooted hcontent
    exact outputPath_same_iff hout hlast hup

/-! ### Some diagrams -/

/-- The arguments that name a diagram and nothing else. -/
def diagramArguments (input : String) : Arguments := ⟨input, none, none, none, "info", false⟩

/-- A world with one file, which is empty. -/
def fileWorld (name : String) : World := .ofTree ⟨[([name], .file .empty)], []⟩

theorem rooted_fileWorld (name : String) : (fileWorld name).tree.Rooted := by
  intro place other hthere
  by_cases hplace : place = []
  · simp [hplace, FileTree.node?]
  · have hne : place ++ [other] ≠ [name] := by simp [List.append_eq_cons_iff, hplace]
    simp [FileTree.node?, fileWorld, World.ofTree, List.lookup_cons, beq_false_of_ne hne] at hthere

/-- The document of a diagram goes beside it also where its name has several dots and the path does
not end there; and a diagram with the extension of a document is not written over. -/
theorem outputPath_derived_documents :
    Fits (diagramArguments "docs/v1.2.mmd/.") "v1.2" ∧
      ∃ output, ((fileWorld "s.xmi").run (run (fun _ => .ok .standard) none .sequential
        (diagramArguments "s.xmi"))).1 = .error (.settings (.outputIsInput output)) := by
  have hderived := outputPath_derived (diagramArguments "docs/v1.2.mmd/.") rfl
  have hrefused := (outputPath_derived (diagramArguments "s.xmi") rfl).refused
    (fun _ => .ok .standard) none .sequential (fileWorld "s.xmi") (rooted_fileWorld "s.xmi")
  have hreads : (fileWorld "s.xmi").Reads ⟨"s.xmi"⟩ "" := ⟨rfl, .empty, by decide +kernel, rfl⟩
  constructor
  · exact hderived.fits "v1.2" (by decide +kernel) (Path.not_endsInDots (by decide +kernel))
  · exact hrefused.mpr ⟨⟨.standard, by decide +kernel⟩, ⟨"", hreads⟩, rfl, by decide +kernel,
      Path.not_endsInDots (by decide +kernel)⟩

/-- The diagram `..x` has a stem, and its document has neither stem nor extension. -/
theorem outputPath_leaves_dots :
    (Path.mk "..x").fileStem? = some "." ∧
      (diagramArguments "..x").outputPath = ⟨".."⟩ ∧
      (diagramArguments "..x").outputPath.fileStem? = none ∧
      (diagramArguments "..x").outputPath.extension? ≠ some "xmi" := by
  decide +kernel

end CommandLine

end SequenceXmi
