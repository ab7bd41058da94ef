import SequenceXmi.Xmi.Exporter

/-! # Failures

What can end a conversion without a document: a file that cannot be read or written, a diagram that
names undeclared participants, or settings that make no sense. Each failure has a message, the code
under which it is reported, and advice where there is some to give. -/

namespace SequenceXmi

open Xmi (Unresolved)

/-! ## Causes -/

/-- Why a file operation failed. -/
inductive FileFault where
  /-- No such file or directory. -/
  | notFound
  /-- A file was wanted and a directory found. -/
  | isADirectory
  /-- A directory was wanted and a file found. -/
  | notADirectory
  /-- The file does not hold UTF-8 text. -/
  | invalidData
  /-- The place is in use and cannot be replaced. -/
  | busy
  /-- The path cannot be the name of any file. -/
  | invalidPath
  /-- The path, or a name in it, is longer than any may be. -/
  | nameTooLong
  /-- Any other cause, in the words of the system. -/
  | other (words : String)
  deriving DecidableEq, Repr

/-- Why the settings or the arguments make no sense. -/
inductive SettingsFault where
  /-- The model name has no visible character. -/
  | emptyModelName
  /-- The configuration file is not what it should be. -/
  | malformed (detail : String)
  /-- The configuration file that was asked for does not exist. -/
  | missingFile (path : String)
  /-- The document would replace the diagram. -/
  | outputIsInput (path : String)
  deriving DecidableEq, Repr

/-- Why there is no document. -/
inductive Failure where
  | file (fault : FileFault)
  | unresolved (fault : Unresolved)
  | settings (fault : SettingsFault)
  deriving DecidableEq, Repr

/-! ## Words -/

/-- The cause in words. -/
def FileFault.text : FileFault → String
  | .notFound => "no such file or directory"
  | .isADirectory => "is a directory"
  | .notADirectory => "not a directory"
  | .invalidData => "stream did not contain valid UTF-8"
  | .busy => "device or resource busy"
  | .invalidPath => "file name contained an unexpected NUL byte"
  | .nameTooLong => "file name too long"
  | .other words => words

/-- The cause in words. -/
def SettingsFault.text : SettingsFault → String
  | .emptyModelName => "export.model_name must not be empty"
  | .malformed detail => "Failed to parse TOML configuration: " ++ detail
  | .missingFile path => "Missing configuration file: " ++ path
  | .outputIsInput path => "output path `" ++ path ++ "` is the input file; pass --output"

namespace Failure

/-- The failure in words. -/
def message : Failure → String
  | .file fault => "I/O error: " ++ fault.text
  | .unresolved fault => "Export error: " ++ fault.text
  | .settings fault => "Configuration error: " ++ fault.text

/-- The code under which the failure is reported. -/
def code : Failure → String
  | .file _ => "mermaid_xmi::io"
  | .unresolved _ => "mermaid_xmi::export"
  | .settings _ => "mermaid_xmi::config"

/-- What to do about the failure: an undeclared participant can be declared. -/
def advice? : Failure → Option String
  | .unresolved fault =>
    some ("declare it with `participant " ++ fault.aliasName ++ "` or `participant " ++
      fault.aliasName ++ " as <display name>`")
  | .file _ | .settings _ => none

end Failure

end SequenceXmi
