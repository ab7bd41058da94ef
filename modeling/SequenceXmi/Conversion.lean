import SequenceXmi.Host
import SequenceXmi.Settings

/-! # Conversion

From diagram text to the text of a document: read the diagram, export it, write the document; and
the same from file to file. -/

namespace SequenceXmi

open Mermaid (Reading)
open Xml (Document)
open Xmi (Exporter Unresolved)

namespace Settings

/-! ## Texts -/

/-- Reads diagram text as the settings say. -/
def read (s : Settings) (source : String) : Reading := Mermaid.read s.nesting source

/-- The document of a diagram, with identifiers from the given supply; also what is left of it. -/
def documentFrom (s : Settings) (ids : IdSupply) (d : Diagram) (name : String) :
    Except Unresolved Document × IdSupply :=
  let (result, x) := (Exporter.ofIds ids |>.withModelName s.modelName).exportDiagram d name
  (result, x.ids)

/-- The supply that a document draws from: numbers from 1, or the random supply at hand. -/
def idSupply (s : Settings) (random : IdSupply) : IdSupply :=
  if s.deterministicIds then .sequential else random

/-- The document of a diagram, with identifiers as the settings say. -/
def document (s : Settings) (random : IdSupply) (d : Diagram) (name : String) :
    Except Failure Document :=
  (s.documentFrom (s.idSupply random) d name).1.mapError .unresolved

/-- Converts diagram text to the text of a document. -/
def convert (s : Settings) (random : IdSupply) (source name : String) : Except Failure String :=
  (s.document random (s.read source).diagram name).map (·.text)

end Settings

/-! ## Files -/

section Files

variable {m : Type → Type} [Monad m] {handle : Type} [Host m handle]

/-- Writes a document to a file. -/
def writeDocument (d : Document) (output : Path) : ExceptT Failure m Unit :=
  Host.writeText output d.text

/-- Converts the diagram in a file to a document in another file. -/
def Settings.convertFile (s : Settings) (random : IdSupply) (input output : Path) (name : String) :
    ExceptT Failure m Reading := do
  let source ← Host.readText input
  let reading := s.read source
  let document ← ExceptT.mk (pure (s.document random reading.diagram name))
  writeDocument document output
  return reading

end Files

end SequenceXmi
