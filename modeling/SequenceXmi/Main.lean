import SequenceXmi.CommandLine.Run
import SequenceXmi.SettingsFile

/-! # The command

The host that is the real system: files of the system, text on standard output, warnings on standard
error. Everything else is decided by `CommandLine.run`. -/

namespace SequenceXmi

/-! ## The system as a host -/

/-- How the command talks to its user. -/
structure Console where
  /-- Whether warnings are shown. -/
  showsWarnings : Bool

/-- Steps on the real system. -/
abbrev Shell := ReaderT Console IO

namespace Shell

/-- A fault as the system reports it. -/
def faultOf : IO.Error → FileFault
  | .noFileOrDirectory .. => .notFound
  | e => .other (toString e)

/-- A step of the system that may fail. -/
def attempt {α : Type} (step : IO α) : Shell (Except FileFault α) := do
  try return .ok (← step) catch e => return .error (faultOf e)

/-- Whether a step of the system succeeds. -/
def succeeds {α : Type} (step : IO α) : Shell Bool := return (← attempt step).isOk

/-- A name that is most likely unused. -/
def randomName : IO String := do
  let bytes ← IO.getRandomBytes 8
  return ".tmp" ++ String.ofList (bytes.toList.flatMap fun b => IdSupply.hexText 2 b.toNat)

/-- Makes an empty file of an unused name in a directory. -/
def createFile (directory : Path) : IO Path := do
  let path := directory.text ++ "/" ++ (← randomName)
  let _ ← IO.FS.Handle.mk path .writeNew
  return ⟨path⟩

instance : Host Shell Path where
  isThere path := succeeds (IO.FS.realPath path.text)
  readBytes path := attempt (IO.FS.readBinFile path.text)
  stage directory := attempt (createFile directory)
  fill file bytes := attempt (IO.FS.writeBinFile file.text bytes)
  publish file path := attempt (IO.FS.rename file.text path.text)
  discard file := do
    let _ ← attempt (IO.FS.removeFile file.text)
  print text := fun _ => IO.print text
  report warning := fun console => do
    if console.showsWarnings then IO.eprintln warning.headline

end Shell

/-! ## Words of the command -/

namespace CommandLine

/-- The name and version of the command. -/
def versionText : String := "mermaid-xmi 0.1.0"

/-- How the command is used. -/
def helpText : String :=
  "Usage: mermaid-xmi [OPTIONS] <INPUT>\n\n" ++
  "Arguments:\n" ++
  "  <INPUT>  Path to the input file\n\n" ++
  "Options:\n" ++
  "  -o, --output <OUTPUT>        Path of the document\n" ++
  "  -n, --name <NAME>            Name of the interaction\n" ++
  "  -c, --config <CONFIG>        Path of the configuration file\n" ++
  "      --log-level <LOG_LEVEL>  What is logged [default: info]\n" ++
  "      --dump-model             Show the model and write no document\n" ++
  "  -h, --help                   Print help\n" ++
  "  -V, --version                Print version"

/-- What is wrong with the arguments, in words. -/
def UsageFault.text : UsageFault → String
  | .missingInput => "the following required arguments were not provided: <INPUT>"
  | .unknownArgument text => "unexpected argument '" ++ text ++ "' found"
  | .missingValue => "a value is required for an option but none was supplied"
  | .repeatedOption => "an option cannot be used multiple times"
  | .unexpectedValue => "a flag takes no value"
  | .help => helpText
  | .version => versionText

/-- The levels at which warnings are not shown. -/
def quietLevels : List String := ["off", "error"]

/-- The configuration file of the user, if the environment says where such files are. -/
def userConfig : IO (Option Path) := do
  let file := "/mermaid-xmi/config.toml"
  match ← IO.getEnv "XDG_CONFIG_HOME", ← IO.getEnv "HOME" with
  | some directory, home =>
    if directory.startsWith "/" then return some ⟨directory ++ file⟩
    else return home.map fun h => ⟨h ++ "/.config" ++ file⟩
  | none, home => return home.map fun h => ⟨h ++ "/.config" ++ file⟩

/-- A supply of random identifiers. -/
def randomIds : IO IdSupply := do
  let bytes ← IO.getRandomBytes 16
  let word (bytes : List UInt8) : UInt64 := bytes.foldl (fun n b => 256 * n + b.toUInt64) 0
  return .ofSeeds (word (bytes.toList.take 8)) (word (bytes.toList.drop 8))

/-- Runs the command on the real system; the answer is the exit code. -/
def execute (args : Arguments) : IO UInt32 := do
  let console : Console := ⟨!quietLevels.contains args.logLevel.toLower⟩
  let reader (text : String) := (Settings.ofText text).mapError (·.text)
  let action : ExceptT Failure Shell Unit := run reader (← userConfig) (← randomIds) args
  match ← action.run.run console with
  | .ok () => return 0
  | .error failure =>
    IO.eprintln failure.message
    if let some advice := failure.advice? then IO.eprintln ("help: " ++ advice)
    return 1

end CommandLine

end SequenceXmi

open SequenceXmi.CommandLine in
/-- The command. -/
def main (args : List String) : IO UInt32 := do
  match Arguments.read args with
  | .ok args => execute args
  | .error .help => IO.println helpText; return 0
  | .error .version => IO.println versionText; return 0
  | .error fault => IO.eprintln fault.text; return 2
