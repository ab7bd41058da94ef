import SequenceXmi.Settings
import SequenceXmi.Toml.Document

/-! # Settings in a configuration file

A configuration file is a TOML document with two sections, each of them optional, as are their
keys:

- `parser` with the key `nesting`, the name of a way of nesting;
- `export` with the keys `model_name`, a text, and `deterministic_ids`, a truth value.

A key that is left out keeps the standard setting, and keys of other names are passed over if every
number in their values fits. A section is a table, or an array with the values of its keys in the
order above, whatever follows them; a date counts as a table without any of the keys. -/

namespace SequenceXmi

open Mermaid (Nesting)
open Toml (Value Entries)

/-- Why a text gives no settings. -/
inductive SettingsFileFault where
  /-- The text is no TOML document. -/
  | toml (fault : Toml.Fault)
  /-- A key has a value that is none of its own. -/
  | wrongValue (key : String)
  deriving DecidableEq, Repr

/-- The fault in words. -/
def SettingsFileFault.text : SettingsFileFault → String
  | .toml fault => fault.text
  | .wrongValue key => "the value of `" ++ key ++ "` cannot be used"

namespace Settings

/-! ## Values -/

/-- Reads a value that may be missing. -/
def reading {α : Type} (key : String) (missing : α) (read? : Value → Option α) :
    Option Value → Except SettingsFileFault α
  | none => .ok missing
  | some v => (read? v).elim (.error (.wrongValue key)) .ok

/-- A text. -/
def string? : Value → Option String
  | .string text => some text
  | _ => none

/-- A truth value. -/
def boolean? : Value → Option Bool
  | .boolean b => some b
  | _ => none

/-- A way of nesting by its name: as a text, or as the only key of a table with nothing in its
value. -/
def nesting? : Value → Option Nesting
  | .string name => Nesting.ofName? name
  | .table _ [(name, .table _ [])] => Nesting.ofName? name
  | .table _ [(name, .array [])] => Nesting.ofName? name
  | _ => none

/-! ## Sections -/

/-- The keys of the section `parser`. -/
def parserKeys : List String := ["nesting"]

/-- The keys of the section `export`. -/
def exportKeys : List String := ["model_name", "deterministic_ids"]

/-- Passes over the entries of other names than the given ones. -/
def passOver (keys : List String) (entries : Entries) : Except SettingsFileFault Unit :=
  match entries.find? fun (key, value) => !keys.contains key && !value.fits with
  | some (key, _) => .error (.wrongValue key)
  | none => .ok ()

/-- The values of a section's keys, each if it is there. -/
def sectionValues (name : String) (keys : List String) :
    Option Value → Except SettingsFileFault (List (Option Value))
  | none | some .moment => .ok (keys.map fun _ => none)
  | some (.table _ entries) => do
    passOver keys entries
    return keys.map (Entries.get? entries)
  | some (.array items) => .ok ((List.range keys.length).map fun i => items[i]?)
  | some (.tables items) =>
    .ok ((List.range keys.length).map fun i => items[i]?.map (Value.table .header))
  | some _ => .error (.wrongValue name)

/-- The settings that a TOML document holds. -/
def ofToml (document : Entries) : Except SettingsFileFault Settings := do
  passOver ["parser", "export"] document
  let parser ← sectionValues "parser" parserKeys (document.get? "parser")
  let exporter ← sectionValues "export" exportKeys (document.get? "export")
  let nesting ← reading "nesting" standard.nesting nesting? (parser[0]?.join)
  let modelName ← reading "model_name" standard.modelName string? (exporter[0]?.join)
  let deterministicIds ←
    reading "deterministic_ids" standard.deterministicIds boolean? (exporter[1]?.join)
  return ⟨nesting, modelName, deterministicIds⟩

/-- The settings that a text holds. -/
def ofText (text : String) : Except SettingsFileFault Settings := do
  ofToml (← (Toml.read text).mapError .toml)

end Settings

end SequenceXmi
