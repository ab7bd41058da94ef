import SequenceXmi.Failure
import SequenceXmi.Mermaid.Reading

/-! # Settings of a conversion

How fragments nest, how the model is called, and where identifiers come from. -/

namespace SequenceXmi

open Mermaid (Nesting)

/-- The settings of a conversion. -/
structure Settings where
  /-- How fragments nest in the diagram text. -/
  nesting : Nesting
  /-- The name of the model in the document. -/
  modelName : String
  /-- Identifiers are numbered from 1 in each document, and not random. -/
  deterministicIds : Bool
  deriving DecidableEq, Repr

namespace Settings

/-- The settings where nothing else is said. -/
def standard : Settings := ⟨.flat, Xmi.defaultModelName, false⟩

/-- Settings are refused if nothing of the model name would be seen. -/
def check (s : Settings) : Except SettingsFault Unit :=
  if (Text.trim s.modelName.toList).isEmpty then .error .emptyModelName else .ok ()

end Settings

end SequenceXmi
