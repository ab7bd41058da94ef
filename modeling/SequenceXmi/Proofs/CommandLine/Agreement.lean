import SequenceXmi.Proofs.CommandLine.Runs
import SequenceXmi.SettingsFile

/-! # The command and the conversion of a file

The command converts its diagram as `Settings.convertFile` does with the settings that it finds. It
differs in two points: warnings about the diagram are reported before the document is written, and
an output path that is the path of the diagram is refused before the document is made.

Main result: `run_agrees`. Whatever has been reported before, a document is made and written in the
same way (`IgnoresReports`), so that both runs go on alike after the diagram has been read. -/

namespace SequenceXmi

open World (run_bind_ok run_bind_error run_throw)

namespace World

variable {α β : Type} {act : ExceptT Failure (StateM World) α}
  {next : α → ExceptT Failure (StateM World) β}

/-! ## Reports play no part -/

/-- A conversion reports nothing, and does the same whatever has been reported before. -/
def IgnoresReports (act : ExceptT Failure (StateM World) α) : Prop :=
  ∀ (w : World) (reported : List Mermaid.Warning),
    { w with reported }.run act = ((w.run act).1, { (w.run act).2 with reported })

namespace IgnoresReports

theorem pure (a : α) : IgnoresReports (Pure.pure a) := fun _ _ => rfl

theorem throw (f : Failure) : IgnoresReports (MonadExcept.throw f : ExceptT Failure _ α) :=
  fun _ _ => rfl

theorem mk (result : Except Failure α) : IgnoresReports (ExceptT.mk (Pure.pure result)) :=
  fun _ _ => rfl

theorem bind (h : IgnoresReports act) (hnext : ∀ a, IgnoresReports (next a)) :
    IgnoresReports (act >>= next) := by
  intro w reported
  have hact := h w reported
  rcases hrun : w.run act with ⟨result, after⟩
  rw [hrun] at hact
  cases result with
  | error f => rw [run_bind_error hact, run_bind_error hrun]
  | ok a => rw [run_bind_ok hact, run_bind_ok hrun, hnext a after reported]

/-- An operation works on the files, and on nothing else. -/
theorem operate_run (operation : Operation) (f : FileTree → Except FileFault (α × FileTree))
    (w : World) (reported : List Mermaid.Warning) :
    (operate operation f).run { w with reported } =
      (((operate operation f).run w).1, { ((operate operation f).run w).2 with reported }) := by
  show operate operation f { w with reported } =
    ((operate operation f w).1, { (operate operation f w).2 with reported })
  unfold operate
  cases w.refuses operation with
  | some fault => rfl
  | none =>
    cases f w.tree with
    | error fault => rfl
    | ok result => rfl

theorem attempt_operate (operation : Operation)
    (f : FileTree → Except FileFault (α × FileTree)) :
    IgnoresReports (Host.attempt (operate operation f)) := fun w reported =>
  congrArg (fun p => (p.1.mapError Failure.file, p.2)) (operate_run operation f w reported)

theorem lift_operate (operation : Operation) (f : FileTree → Except FileFault (α × FileTree)) :
    IgnoresReports (ExceptT.lift (operate operation f)) := fun w reported =>
  congrArg (fun p => (Except.ok p.1, p.2)) (operate_run operation f w reported)

theorem discard (file : Location) :
    IgnoresReports (ExceptT.lift (Host.discard file : StateM World Unit)) := fun _ _ => rfl

/-- A file that is given up. -/
theorem discard_throw (file : Location) (f : Failure) :
    IgnoresReports (ExceptT.lift (Host.discard file : StateM World Unit) >>= fun _ =>
      (MonadExcept.throw f : ExceptT Failure _ Unit)) :=
  (discard file).bind fun _ => .throw f

theorem writeText (path : Path) (text : String) :
    IgnoresReports (Host.writeText path text : ExceptT Failure (StateM World) Unit) := by
  unfold Host.writeText
  -- A staged file is filled and published; if one of them fails, it is given up.
  refine (attempt_operate _ _).bind fun file => ?_
  refine (lift_operate _ _).bind fun filled => ?_
  cases filled with
  | error fault => exact discard_throw file _
  | ok _ =>
    refine (lift_operate _ _).bind fun published => ?_
    cases published with
    | error fault => exact discard_throw file _
    | ok _ => exact .pure ()

end IgnoresReports

end World

namespace CommandLine

/-! ## The command -/

/-- Making and writing a document shows nothing and reports nothing. -/
theorem run_produce_rest (s : Settings) (random : IdSupply) (source : String) (output : Path)
    (name : String) (w : World) :
    (w.run (s.produce random source output name)).2.shown = w.shown ∧
      (w.run (s.produce random source output name)).2.reported = w.reported := by
  rcases s.run_produce random source output name w with
    ⟨fault, h⟩ | ⟨u, -, h⟩ | ⟨document, place, -, -, h⟩
  all_goals
    rw [h]
    exact ⟨rfl, rfl⟩

theorem ignoresReports_produce (s : Settings) (random : IdSupply) (source : String) (output : Path)
    (name : String) : World.IgnoresReports (s.produce random source output name) :=
  (World.IgnoresReports.mk _).bind fun document => .writeText output document.text

/-- A run of the command that is to write a document agrees with the conversion from its input path
to its output path: it succeeds or fails alike and leaves the same files, and neither shows
anything. What it does besides is to report warnings. But if the output path is the path of the
diagram and the diagram can be read, the run fails, and nothing changes but the reports; it does not
matter whether there would be a document. -/
theorem run_agrees (reader : SettingsReader) (user : Option Path) (random other : IdSupply)
    (args : Arguments) (w : World) (settings : Settings) (hdump : args.dumpModel = false)
    (hload : (w.run (loadSettings reader user args.config)).1 = .ok settings) :
    (settings.deterministicIds = true → args.outputPath.same ⟨args.input⟩ = false →
      let command := w.run (run reader user random args)
      let conversion :=
        w.run (settings.convertFile other ⟨args.input⟩ args.outputPath args.diagramName)
      command.1 = conversion.1.map (fun _ => ()) ∧
        (∃ warnings, command.2 = { conversion.2 with reported := w.reported ++ warnings }) ∧
        conversion.2.shown = w.shown ∧ conversion.2.reported = w.reported) ∧
    (args.outputPath.same ⟨args.input⟩ = true → ∀ source, w.Reads ⟨args.input⟩ source →
      w.run (run reader user random args) =
        (.error (.settings (.outputIsInput args.outputPath.text)),
          { w with reported := w.reported ++ (settings.read source).warnings })) := by
  refine ⟨?_, ?_⟩
  · intro hids hother command conversion
    rcases w.run_readText ⟨args.input⟩ with ⟨fault, hread⟩ | ⟨source, -, hread⟩
    · have hcommand : command = (.error (.file fault), w) := run_of_unreadable random hload hread
      have hconversion : conversion = (.error (.file fault), w) := run_bind_error hread
      rw [hcommand, hconversion]
      exact ⟨rfl, ⟨[], by simp⟩, rfl, rfl⟩
    · have hnext : afterReading settings random args source =
          settings.produce other source args.outputPath args.diagramName := by
        unfold afterReading
        rw [hdump, hother, Settings.produce_of_deterministicIds hids random other]
        rfl
      have hcommand : command = _ := run_of_readable random hload hread
      have hconversion : conversion = _ :=
        settings.run_convertFile_of_readable other args.outputPath args.diagramName hread
      -- Both go on with the same steps, one after some reports.
      rw [hnext, ignoresReports_produce] at hcommand
      obtain ⟨hshown, hreported⟩ :=
        run_produce_rest settings other source args.outputPath args.diagramName w
      rw [hcommand, hconversion]
      dsimp only
      refine ⟨?_, ⟨(settings.read source).warnings, rfl⟩, hshown, hreported⟩
      cases (w.run (settings.produce other source args.outputPath args.diagramName)).1 <;> rfl
  · intro hsame source hreads
    have hnext : afterReading settings random args source =
        throw (.settings (.outputIsInput args.outputPath.text)) := by
      unfold afterReading
      rw [hdump, hsame]
      rfl
    rw [run_of_readable random hload hreads.run_readText, hnext]
    exact run_throw _ _

/-! ### A diagram and its configuration -/

/-- The text of the diagram; its last line is left out. -/
def greeting : String := "participant A\nA->>A: hi\nbye"

/-- A world with the diagram and a configuration file. -/
def greetingWorld : World :=
  .ofTree ⟨[(["s.mmd"], .file greeting.toUTF8),
    (["c.toml"], .file "[export]\ndeterministic_ids = true\n".toUTF8)], []⟩

/-- The arguments for both, with a path for the document if there is one. -/
def greetingArguments (output : Option String) : Arguments :=
  ⟨"s.mmd", output, none, some "c.toml", "info", false⟩

/-- Configuration files are read as settings. -/
def tomlReader : SettingsReader := fun text => (Settings.ofText text).mapError (·.text)

theorem greetingWorld_settings (output : Option String) :
    (greetingWorld.run (loadSettings tomlReader none (greetingArguments output).config)).1 =
      .ok Settings.numbered := by
  show (greetingWorld.run (loadSettings tomlReader none (some "c.toml"))).1 = _
  decide +kernel

theorem greetingWorld_reads : greetingWorld.Reads ⟨"s.mmd"⟩ greeting :=
  ⟨rfl, greeting.toUTF8, by decide +kernel, by decide +kernel⟩

/-- A run of the command with these arguments. -/
def runGreeting (output : Option String) : Except Failure Unit × World :=
  greetingWorld.run (run tomlReader none .sequential (greetingArguments output))

/-- The conversion with the settings of the configuration file. -/
def convertGreeting (output : Option String) : Except Failure Mermaid.Reading × World :=
  greetingWorld.run (Settings.numbered.convertFile .sequential ⟨(greetingArguments output).input⟩
    (greetingArguments output).outputPath (greetingArguments output).diagramName)

/-- The document is written beside the diagram, and refused in its place. -/
theorem run_agrees_greeting :
    ((runGreeting none).1 = .ok () ∧
      (convertGreeting none).1 = .ok (Settings.numbered.read greeting) ∧
      (runGreeting none).2.tree = (convertGreeting none).2.tree) ∧
    runGreeting (some "s.mmd") = (.error (.settings (.outputIsInput "s.mmd")),
      { greetingWorld with
        reported := greetingWorld.reported ++ (Settings.numbered.read greeting).warnings }) := by
  obtain ⟨hresult, ⟨warnings, hafter⟩, -⟩ := (run_agrees tomlReader none .sequential .sequential
    (greetingArguments none) greetingWorld Settings.numbered rfl (greetingWorld_settings none)).1
    rfl (by decide +kernel)
  have hrefused := (run_agrees tomlReader none .sequential .sequential
    (greetingArguments (some "s.mmd")) greetingWorld Settings.numbered rfl
    (greetingWorld_settings (some "s.mmd"))).2 (by decide +kernel) greeting greetingWorld_reads
  have hconverted : (convertGreeting none).1 = .ok (Settings.numbered.read greeting) := by
    decide +kernel
  have htree : (runGreeting none).2.tree = (convertGreeting none).2.tree := by
    unfold runGreeting convertGreeting
    rw [hafter]
  refine ⟨⟨?_, hconverted, htree⟩, ?_⟩
  · unfold runGreeting
    rw [hresult]
    exact congrArg (Except.map fun _ => ()) hconverted
  · unfold runGreeting
    rw [hrefused]
    rfl

end CommandLine

end SequenceXmi
