import SequenceXmi.CommandLine.Arguments
import SequenceXmi.CommandLine.Run
import SequenceXmi.Conversion
import SequenceXmi.Diagram
import SequenceXmi.Failure
import SequenceXmi.Host
import SequenceXmi.Identifier
import SequenceXmi.Json
import SequenceXmi.Main
import SequenceXmi.Mermaid.Reading
import SequenceXmi.Mermaid.Statement
import SequenceXmi.Mermaid.Warning
import SequenceXmi.ModelDump
import SequenceXmi.Path
import SequenceXmi.Proofs.CommandLine.Agreement
import SequenceXmi.Proofs.CommandLine.Dumps
import SequenceXmi.Proofs.CommandLine.Input
import SequenceXmi.Proofs.CommandLine.Lookup
import SequenceXmi.Proofs.CommandLine.Outputs
import SequenceXmi.Proofs.CommandLine.Runs
import SequenceXmi.Proofs.Conversion.Declaring
import SequenceXmi.Proofs.Conversion.Editing
import SequenceXmi.Proofs.Conversion.Nesting
import SequenceXmi.Proofs.Conversion.Outcome
import SequenceXmi.Proofs.Json.Diagrams
import SequenceXmi.Proofs.Json.Reader
import SequenceXmi.Proofs.Json.RoundTrip
import SequenceXmi.Proofs.Mermaid.Accounting
import SequenceXmi.Proofs.Mermaid.Appending
import SequenceXmi.Proofs.Mermaid.Brackets
import SequenceXmi.Proofs.Mermaid.Comparison
import SequenceXmi.Proofs.Mermaid.Declaring
import SequenceXmi.Proofs.Mermaid.Grammar
import SequenceXmi.Proofs.Mermaid.Growing
import SequenceXmi.Proofs.Mermaid.Inert
import SequenceXmi.Proofs.Mermaid.Marks
import SequenceXmi.Proofs.Mermaid.Matching
import SequenceXmi.Proofs.Mermaid.Nesting
import SequenceXmi.Proofs.Mermaid.OpenFragments
import SequenceXmi.Proofs.Mermaid.Printing
import SequenceXmi.Proofs.Mermaid.Reordering
import SequenceXmi.Proofs.Mermaid.Reports
import SequenceXmi.Proofs.Mermaid.RoundTrip
import SequenceXmi.Proofs.Mermaid.Routing
import SequenceXmi.Proofs.Mermaid.Scanners
import SequenceXmi.Proofs.Mermaid.Simulation
import SequenceXmi.Proofs.Mermaid.Spans
import SequenceXmi.Proofs.Mermaid.Structure
import SequenceXmi.Proofs.Mermaid.WellFormed
import SequenceXmi.Proofs.Path.Extensions
import SequenceXmi.Proofs.Path.FileNames
import SequenceXmi.Proofs.Text.Covering
import SequenceXmi.Proofs.Text.Joining
import SequenceXmi.Proofs.Text.Keeping
import SequenceXmi.Proofs.Text.LineEnds
import SequenceXmi.Proofs.Text.Lines
import SequenceXmi.Proofs.Text.Places
import SequenceXmi.Proofs.Text.Scanning
import SequenceXmi.Proofs.Text.Trimming
import SequenceXmi.Proofs.World.Conversions
import SequenceXmi.Proofs.World.Effects
import SequenceXmi.Proofs.World.Trees
import SequenceXmi.Proofs.Xmi.Aliases
import SequenceXmi.Proofs.Xmi.Contents
import SequenceXmi.Proofs.Xmi.Elements
import SequenceXmi.Proofs.Xmi.Failing
import SequenceXmi.Proofs.Xmi.Layout
import SequenceXmi.Proofs.Xmi.Lifetime
import SequenceXmi.Proofs.Xmi.Numbering
import SequenceXmi.Proofs.Xmi.Outcome
import SequenceXmi.Proofs.Xmi.Outline
import SequenceXmi.Proofs.Xmi.References
import SequenceXmi.Proofs.Xmi.Replacing
import SequenceXmi.Proofs.Xmi.Runs
import SequenceXmi.Proofs.Xml.DocumentOrder
import SequenceXmi.Proofs.Xml.Escaping
import SequenceXmi.Proofs.Xml.Making
import SequenceXmi.Proofs.Xml.Reader
import SequenceXmi.Proofs.Xml.RoundTrip
import SequenceXmi.Proofs.Xml.Trees
import SequenceXmi.Proofs.Xml.Values
import SequenceXmi.Settings
import SequenceXmi.SettingsFile
import SequenceXmi.Text.Characters
import SequenceXmi.Text.Digit
import SequenceXmi.Text.Line
import SequenceXmi.Text.Scanner
import SequenceXmi.Text.Span
import SequenceXmi.Text.Split
import SequenceXmi.Text.Word
import SequenceXmi.Toml.Document
import SequenceXmi.Toml.Number
import SequenceXmi.Toml.Quoted
import SequenceXmi.Toml.Value
import SequenceXmi.World
import SequenceXmi.Xmi.Exporter
import SequenceXmi.Xml.Element
import SequenceXmi.Xml.Text

/-! # Sequence diagrams as UML interactions

A text in Mermaid's notation is read into a diagram, and the diagram is exported as an XMI document.
The program:

* `Text`, `Mermaid`, `Diagram`: lines, statements, and the diagram and warnings of a text;
* `Identifier`, `Xmi`, `Xml`: the elements of a document, their identifiers, and the written text;
* `Settings`, `SettingsFile`, `Toml`: what can be configured, and how it is read;
* `Conversion`, `ModelDump`, `Json`: what is made of a text;
* `CommandLine`, `Main`, `Host`, `Path`, `World`: the command, and the files it works on.

`Proofs` has a folder for each of these parts of which something is proved. -/
