import SequenceXmi.Failure
import SequenceXmi.Mermaid.Warning
import SequenceXmi.Path

/-! # The host of a conversion

A conversion reads and writes files, shows text and reports warnings through its `Host`, and through
nothing else. The same conversion runs on the real system and on a `World` that is only a value. -/

namespace SequenceXmi

open Mermaid (Warning)

/-- What a conversion can ask of its surroundings. A file that is being written is known by a
`handle` and has no name of its own choosing until it is moved to its place. -/
class Host (m : Type → Type) (handle : outParam Type) where
  /-- Whether anything is found at a path; if looking fails, nothing is. -/
  isThere : Path → m Bool
  /-- The content of a file. -/
  readBytes : Path → m (Except FileFault ByteArray)
  /-- Makes an empty file of an unused name in a directory. -/
  stage : (directory : Path) → m (Except FileFault handle)
  /-- Fills a file that is being written. -/
  fill : handle → ByteArray → m (Except FileFault Unit)
  /-- Moves a file that is being written to its place, where it replaces any other file. -/
  publish : handle → Path → m (Except FileFault Unit)
  /-- Removes a file that is being written. -/
  discard : handle → m Unit
  /-- Shows text. -/
  print : String → m Unit
  /-- Reports a warning. -/
  report : Warning → m Unit

namespace Host

variable {m : Type → Type} [Monad m] {handle : Type}

/-- A file operation as a step of a conversion. -/
def attempt {α : Type} (operation : m (Except FileFault α)) : ExceptT Failure m α :=
  ExceptT.mk (Except.mapError Failure.file <$> operation)

variable [Host m handle]

/-- Reads a file as UTF-8 text. -/
def readText (path : Path) : ExceptT Failure m String := do
  let bytes ← attempt (Host.readBytes path)
  match String.fromUTF8? bytes with
  | some text => return text
  | none => throw (.file .invalidData)

/-- The directory that a file is staged in: that of its place. -/
def stagingDirectory (target : Path) : Path :=
  match target.parent? with
  | some directory => if directory.text.isEmpty then ⟨"."⟩ else directory
  | none => ⟨"."⟩

/-- Writes a file in one go: its content is complete before it takes its place, and a failure leaves
nothing behind. -/
def writeText (target : Path) (text : String) : ExceptT Failure m Unit := do
  let file ← attempt (Host.stage (stagingDirectory target))
  let abandon (fault : FileFault) : ExceptT Failure m Unit := do
    ExceptT.lift (Host.discard file)
    throw (.file fault)
  match ← ExceptT.lift (Host.fill file text.toUTF8) with
  | .error fault => abandon fault
  | .ok () =>
    match ← ExceptT.lift (Host.publish file target) with
    | .error fault => abandon fault
    | .ok () => return ()

end Host

end SequenceXmi
