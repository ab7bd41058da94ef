import SequenceXmi.CommandLine.Run
import SequenceXmi.Proofs.World.Conversions

/-! # What a run of the command does to a world

A run reads its settings and its diagram, which changes nothing. Then it may report warnings and
show the model (`run_of_readable`); the only file that it changes is the one at its output path, if
it writes a document there (`run_cases`). -/

namespace SequenceXmi.CommandLine

open World (Keeps run_bind_ok run_bind_error run_lift run_mk run_throw)

/-! ## Settings -/

theorem keeps_settingsIn (reader : SettingsReader) (path : Path) :
    Keeps (settingsIn reader path) := by
  unfold settingsIn
  refine (Keeps.isThere path).bind fun found => ?_
  cases found with
  | false => exact (Keeps.throw _)
  | true =>
    refine (Keeps.readText path).bind fun text => ?_
    cases reader text with
    | ok settings => exact Keeps.pure settings
    | error detail => exact Keeps.throw _

theorem keeps_findSettings (reader : SettingsReader) (user : Option Path)
    (config : Option String) : Keeps (findSettings reader user config) := by
  unfold findSettings
  cases config with
  | some path => exact keeps_settingsIn reader ⟨path⟩
  | none =>
    refine (Keeps.isThere localConfig).bind fun found => ?_
    cases found with
    | true => exact keeps_settingsIn reader localConfig
    | false =>
      cases user with
      | none => exact Keeps.pure _
      | some path =>
        refine (Keeps.isThere path).bind fun found => ?_
        cases found with
        | true => exact keeps_settingsIn reader path
        | false => exact Keeps.pure _

/-- Finding the settings changes nothing, whether there are any or not. -/
theorem keeps_loadSettings (reader : SettingsReader) (user : Option Path)
    (config : Option String) : Keeps (loadSettings reader user config) := by
  unfold loadSettings
  refine (keeps_findSettings reader user config).bind fun settings => ?_
  cases settings.check with
  | ok _ => exact Keeps.pure settings
  | error fault => exact Keeps.throw _

/-! ## The command -/

/-- Reporting warnings changes what has been reported, and nothing else. -/
theorem forM_report_run (w : World) (warnings : List Mermaid.Warning) :
    (warnings.forM Host.report : StateM World Unit).run w =
      ((), { w with reported := w.reported ++ warnings }) := by
  induction warnings generalizing w with
  | nil => rw [List.append_nil]; rfl
  | cons warning warnings ih =>
    have hreport : (Host.report warning : StateM World Unit).run w =
        ((), { w with reported := w.reported ++ [warning] }) := rfl
    have hcons : (warning :: warnings).forM Host.report =
        (Host.report warning >>= fun _ => warnings.forM Host.report : StateM World Unit) := rfl
    rw [hcons, StateT.run_bind, hreport]
    exact (ih _).trans (by simp)

/-- What the command does with a diagram that it has read. -/
def afterReading (settings : Settings) (random : IdSupply) (args : Arguments) (source : String) :
    ExceptT Failure (StateM World) Unit :=
  if args.dumpModel then dump (settings.read source).diagram
  else if args.outputPath.same ⟨args.input⟩ then
    throw (Failure.settings (.outputIsInput args.outputPath.text))
  else settings.produce random source args.outputPath args.diagramName

section

variable {reader : SettingsReader} {user : Option Path} {args : Arguments} {w : World}
  {settings : Settings} {source : String} (random : IdSupply)

/-- A run that cannot read its diagram. -/
theorem run_of_unreadable (hload : (w.run (loadSettings reader user args.config)).1 = .ok settings)
    {fault : FileFault} (hread : w.run (Host.readText ⟨args.input⟩) = (.error (.file fault), w)) :
    w.run (run reader user random args) = (.error (.file fault), w) := by
  have hsettings := (keeps_loadSettings reader user args.config).run_eq w
  rw [hload] at hsettings
  unfold run
  rw [run_bind_ok hsettings, run_bind_error hread]

/-- What a run does once it has read its diagram: it reports the warnings and goes on. -/
theorem run_of_readable (hload : (w.run (loadSettings reader user args.config)).1 = .ok settings)
    (hread : w.run (Host.readText ⟨args.input⟩) = (.ok source, w)) :
    w.run (run reader user random args) =
      { w with reported := w.reported ++ (settings.read source).warnings }.run
        (afterReading settings random args source) := by
  have hsettings := (keeps_loadSettings reader user args.config).run_eq w
  rw [hload] at hsettings
  unfold run afterReading
  rw [run_bind_ok hsettings, run_bind_ok hread]
  dsimp only
  rw [run_bind_ok (run_lift (forM_report_run w _))]
  split
  · rfl
  · split
    · exact run_bind_error (run_throw _ _)
    · rfl

end

/-- The document that a run makes in a world: its settings can be found, its diagram can be read,
and every message of the diagram has its ends. -/
def Makes (reader : SettingsReader) (user : Option Path) (random : IdSupply) (args : Arguments)
    (w : World) (document : Xml.Document) : Prop :=
  ∃ settings bytes source,
    (w.run (loadSettings reader user args.config)).1 = .ok settings ∧
    w.tree.content ⟨args.input⟩ = .ok bytes ∧ String.fromUTF8? bytes = some source ∧
    settings.document random (settings.read source).diagram args.diagramName = .ok document

/-- What a run can do. It leaves all files as they are, and then succeeds only if it was to show the
model; or it writes a document to a path that is not the path of the diagram, and no other file
changes. -/
theorem run_cases (reader : SettingsReader) (user : Option Path) (random : IdSupply)
    (args : Arguments) (w : World) :
    (∃ result reported shown,
      w.run (run reader user random args) = (result, { w with reported, shown }) ∧
        (result = .ok () → args.dumpModel = true)) ∨
    (args.dumpModel = false ∧ args.outputPath.same ⟨args.input⟩ = false ∧
      ∃ document place reported, Makes reader user random args w document ∧
        w.tree.target args.outputPath = .ok place ∧
        w.run (run reader user random args) = (.ok (),
          { w with tree := w.tree.put place (.file document.text.toUTF8), reported })) := by
  cases hload : (w.run (loadSettings reader user args.config)).1 with
  | error f =>
    have hsettings := (keeps_loadSettings reader user args.config).run_eq w
    rw [hload] at hsettings
    exact .inl ⟨.error f, w.reported, w.shown, run_bind_error hsettings, nofun⟩
  | ok settings =>
    rcases w.run_readText ⟨args.input⟩ with ⟨fault, h⟩ | ⟨source, ⟨-, bytes, hcontent, hsource⟩, h⟩
    · exact .inl ⟨_, w.reported, w.shown, run_of_unreadable random hload h, nofun⟩
    rw [run_of_readable random hload h]
    unfold afterReading
    by_cases hdump : args.dumpModel = true
    · rw [if_pos hdump]
      exact .inl ⟨.ok (), _, _, run_lift rfl, fun _ => hdump⟩
    rw [if_neg hdump]
    by_cases hsame : args.outputPath.same ⟨args.input⟩ = true
    · rw [if_pos hsame]
      exact .inl ⟨_, _, _, run_throw _ _, nofun⟩
    rw [if_neg hsame]
    rcases settings.run_produce random source args.outputPath args.diagramName _ with
      ⟨fault, h⟩ | ⟨u, -, h⟩ | ⟨document, place, hdocument, htarget, h⟩
    · exact .inl ⟨_, _, _, h, nofun⟩
    · exact .inl ⟨_, _, _, h, nofun⟩
    · have hmakes : Makes reader user random args w document :=
        ⟨settings, bytes, source, hload, hcontent, hsource, hdocument⟩
      exact .inr ⟨by simpa using hdump, by simpa using hsame, document, place, _, hmakes, htarget,
        h⟩

end SequenceXmi.CommandLine
