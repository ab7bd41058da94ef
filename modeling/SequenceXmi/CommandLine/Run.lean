import SequenceXmi.CommandLine.Arguments
import SequenceXmi.Conversion
import SequenceXmi.ModelDump

/-! # Running the command

The command finds its settings, reads the diagram, and then either shows the model or writes the
document. Settings come from one file only: the one that the arguments name; else the local one;
else that of the user, if there is one; else they are the standard settings. A file that is chosen
must be in order, whatever other files there are. -/

namespace SequenceXmi.CommandLine

/-- How the text of a configuration file is read: as settings, or as a reason against it. -/
abbrev SettingsReader := String → Except String Settings

section

variable {m : Type → Type} [Monad m] {handle : Type} [Host m handle]

/-! ## Settings -/

/-- The configuration file of the working directory. -/
def localConfig : Path := ⟨"mermaid-xmi/config.toml"⟩

/-- The settings in a file. -/
def settingsIn (reader : SettingsReader) (path : Path) : ExceptT Failure m Settings := do
  if !(← ExceptT.lift (Host.isThere path)) then throw (.settings (.missingFile path.text))
  let text ← Host.readText path
  match reader text with
  | .ok settings => return settings
  | .error detail => throw (.settings (.malformed detail))

/-- The settings in the first file that counts, before they are checked. -/
def findSettings (reader : SettingsReader) (user : Option Path) (config : Option String) :
    ExceptT Failure m Settings := do
  match config with
  | some path => settingsIn reader ⟨path⟩
  | none =>
    if ← ExceptT.lift (Host.isThere localConfig) then settingsIn reader localConfig
    else match user with
      | some path =>
        if ← ExceptT.lift (Host.isThere path) then settingsIn reader path else return .standard
      | none => return .standard

/-- The settings of a run. `user` is the path of the user's configuration file, where users have
one. -/
def loadSettings (reader : SettingsReader) (user : Option Path) (config : Option String) :
    ExceptT Failure m Settings := do
  let settings ← findSettings reader user config
  match settings.check with
  | .ok () => return settings
  | .error fault => throw (.settings fault)

/-! ## The command -/

/-- Shows the model that was read. -/
def dump (d : Diagram) : ExceptT Failure m Unit :=
  ExceptT.lift (Host.print (d.toJson.pretty ++ "\n"))

/-- Runs the command. Random identifiers come from the given supply. -/
def run (reader : SettingsReader) (user : Option Path) (random : IdSupply) (args : Arguments) :
    ExceptT Failure m Unit := do
  let settings ← loadSettings reader user args.config
  let source ← Host.readText ⟨args.input⟩
  let reading := settings.read source
  ExceptT.lift (reading.warnings.forM Host.report)
  if args.dumpModel then
    dump reading.diagram
  else
    let output := args.outputPath
    if output.same ⟨args.input⟩ then throw (.settings (.outputIsInput output.text))
    let document ← ExceptT.mk (pure (settings.document random reading.diagram args.diagramName))
    writeDocument document output

end

end SequenceXmi.CommandLine
