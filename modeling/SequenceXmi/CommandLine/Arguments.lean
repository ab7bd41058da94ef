import SequenceXmi.Path

/-! # Command line arguments

The arguments name the diagram to convert, and may say where the document goes, how the
interaction is called, which configuration file counts, how much is logged, and that the model is
to be shown.

An option with a value is written `-o V`, `-oV`, `-o=V`, `--output V` or `--output=V`; a value
that starts with a dash must be joined to its option. After `--` everything is the name of the
diagram. Arguments are taken from left to right, and the first fault counts. -/

namespace SequenceXmi.CommandLine

/-! ## Arguments -/

/-- What the command line asks for. -/
structure Arguments where
  /-- The file of the diagram. -/
  input : String
  /-- The file of the document. -/
  output : Option String
  /-- The name of the interaction. -/
  name : Option String
  /-- The configuration file. -/
  config : Option String
  logLevel : String
  /-- Show the model and write no document. -/
  dumpModel : Bool
  deriving DecidableEq, Repr

namespace Arguments

/-- The extension of documents. -/
def outputExtension : String := "xmi"

/-- The name of an interaction whose file has none. -/
def fallbackName : String := "Interaction"

/-- Where the document goes: where the arguments say, or beside the diagram. -/
def outputPath (a : Arguments) : Path :=
  match a.output with
  | some output => ⟨output⟩
  | none => (Path.mk a.input).withExtension outputExtension

/-- How the interaction is called: as the arguments say, or as the file of the diagram. -/
def diagramName (a : Arguments) : String :=
  match a.name with
  | some name => name
  | none => ((Path.mk a.input).fileStem?).getD fallbackName

end Arguments

/-! ## Reading arguments -/

/-- Why there are no arguments to work with. -/
inductive UsageFault where
  /-- No diagram is named. -/
  | missingInput
  /-- There is no such option, or a second diagram is named. -/
  | unknownArgument (text : String)
  /-- An option lacks its value. -/
  | missingValue
  /-- An option is given twice. -/
  | repeatedOption
  /-- A flag is given a value. -/
  | unexpectedValue
  /-- Not to convert but to be helped was asked for. -/
  | help
  /-- Not to convert but the version was asked for. -/
  | version
  deriving DecidableEq, Repr

/-- The options that take a value. -/
inductive ValueOption where
  | output
  | name
  | config
  | logLevel
  deriving DecidableEq, Repr

/-- Anything that starts with a dash and is known. -/
inductive Switch where
  | valued (o : ValueOption)
  | dumpModel
  | help
  | version
  deriving DecidableEq, Repr

/-- The switch of a long name. -/
def Switch.ofLong? : List Char → Option Switch := fun name =>
  if name = "output".toList then some (.valued .output)
  else if name = "name".toList then some (.valued .name)
  else if name = "config".toList then some (.valued .config)
  else if name = "log-level".toList then some (.valued .logLevel)
  else if name = "dump-model".toList then some .dumpModel
  else if name = "help".toList then some .help
  else if name = "version".toList then some .version
  else none

/-- The switch of a letter. -/
def Switch.ofShort? : Char → Option Switch
  | 'o' => some (.valued .output)
  | 'n' => some (.valued .name)
  | 'c' => some (.valued .config)
  | 'h' => some .help
  | 'V' => some .version
  | _ => none

/-- What has been read of the command line. -/
structure Collected where
  input : Option String
  output : Option String
  name : Option String
  config : Option String
  logLevel : Option String
  dumpModel : Bool
  /-- The option read last, if its value stands apart, and that value once it is there. -/
  pending : Option (ValueOption × Option String)
  deriving DecidableEq, Repr

namespace Collected

/-- Nothing has been read. -/
def start : Collected := ⟨none, none, none, none, none, false, none⟩

/-- The value of an option. -/
def value? (c : Collected) : ValueOption → Option String
  | .output => c.output
  | .name => c.name
  | .config => c.config
  | .logLevel => c.logLevel

/-- Gives an option its value; no option takes a second one. -/
def set (c : Collected) (o : ValueOption) (value : String) : Except UsageFault Collected :=
  if (c.value? o).isSome then .error .repeatedOption
  else .ok (match o with
    | .output => { c with output := some value }
    | .name => { c with name := some value }
    | .config => { c with config := some value }
    | .logLevel => { c with logLevel := some value })

/-- Settles the option read last: it must have got its value by now. -/
def settle (c : Collected) : Except UsageFault Collected :=
  match c.pending with
  | none => .ok c
  | some (_, none) => .error .missingValue
  | some (o, some value) => { c with pending := none }.set o value

/-- An option with its value. -/
def option (c : Collected) (o : ValueOption) (value : String) : Except UsageFault Collected := do
  (← c.settle).set o value

/-- An option whose value is to follow. -/
def await (c : Collected) (o : ValueOption) : Except UsageFault Collected := do
  return { (← c.settle) with pending := some (o, none) }

/-- A switch without a value. -/
def switch (c : Collected) : Switch → Except UsageFault Collected
  | .valued o => c.await o
  | .dumpModel => do
    let c ← c.settle
    if c.dumpModel then throw .repeatedOption else return { c with dumpModel := true }
  | .help => do
    let _ ← c.settle
    throw .help
  | .version => do
    let _ ← c.settle
    throw .version

/-- The name of the diagram. -/
def positional (c : Collected) (arg : String) : Except UsageFault Collected :=
  if c.input.isSome then .error (.unknownArgument arg)
  else do return { (← c.settle) with input := some arg }

/-- An argument that starts with two dashes, without them. -/
def long (c : Collected) (text : List Char) : Except UsageFault Collected :=
  let name := text.takeWhile (· != '=')
  match Switch.ofLong? name, text.dropWhile (· != '=') with
  | none, _ => .error (.unknownArgument (String.ofList ('-' :: '-' :: text)))
  | some (.valued o), _ :: value => c.option o (String.ofList value)
  | some _, _ :: _ => .error .unexpectedValue
  | some s, [] => c.switch s

/-- An argument that starts with one dash, without it: a letter, and after the letter of an option
its value, with or without an equals sign. -/
def short (c : Collected) (text : List Char) : Except UsageFault Collected :=
  match text with
  | [] => .ok c
  | letter :: rest =>
    match Switch.ofShort? letter, rest with
    | none, _ => .error (.unknownArgument (String.ofList ['-', letter]))
    | some (.valued o), '=' :: value => c.option o (String.ofList value)
    | some (.valued o), v :: value => c.option o (String.ofList (v :: value))
    | some s, _ => c.switch s

/-- An argument in front of `--`. -/
def argument (c : Collected) (arg : String) : Except UsageFault Collected :=
  match arg.toList, c.pending with
  | '-' :: '-' :: text, _ => c.long text
  | '-' :: l :: text, _ => c.short (l :: text)
  | _, some (o, none) => .ok { c with pending := some (o, some arg) }
  | _, _ => c.positional arg

/-- All arguments, one after another. -/
def arguments (c : Collected) : List String → Except UsageFault Collected
  | [] => c.settle
  | "--" :: rest => do
    let c ← rest.foldlM positional c
    c.settle
  | arg :: rest => do
    let c ← c.argument arg
    c.arguments rest

/-- What the command line asks for, if it names a diagram. -/
def finish (c : Collected) : Except UsageFault Arguments :=
  match c.input with
  | some input =>
    .ok ⟨input, c.output, c.name, c.config, c.logLevel.getD "info", c.dumpModel⟩
  | none => .error .missingInput

end Collected

/-- Reads the arguments after the program name. -/
def Arguments.read (args : List String) : Except UsageFault Arguments := do
  (← Collected.start.arguments args).finish

end SequenceXmi.CommandLine
