import SequenceXmi.Text.Span
import SequenceXmi.Text.Split

/-! # Paths

A path is a text in which slashes separate names. The text is kept as it was given; what it says is
read from it:

- empty names between slashes, and the name `.` except at the very start, say nothing;
- the last name, unless it is `.` or `..`, is the *file name*: what follows its last dot is the
  *extension*, what stands before that is the *stem*. A dot at the start of a name does not count.

Two paths are the same path if they have the same components, even where their texts differ. -/

namespace SequenceXmi

/-- A path, as text. -/
structure Path where
  text : String
  deriving DecidableEq, Repr

namespace Path

open Text (splitOn byteLength)

/-! ## Components -/

/-- What one part of a path says. -/
inductive Component where
  /-- The start of an absolute path. -/
  | root
  /-- The name `.` at the start of a path. -/
  | here
  /-- The name `..`. -/
  | up
  /-- Any other name. -/
  | name (text : List Char)
  deriving DecidableEq, Repr

/-- What a name says after the start of a path. -/
def component? (name : List Char) : Option Component :=
  if name = [] ∨ name = ['.'] then none
  else if name = ['.', '.'] then some .up
  else some (.name name)

/-- What a name says at the start of a path. -/
def firstComponent? (name : List Char) : Option Component :=
  if name = ['.'] then some .here else component? name

/-- The components of a path. -/
def components (p : Path) : List Component :=
  match splitOn '/' p.text.toList with
  | [] => []
  | first :: rest =>
    let start := if first.isEmpty && !rest.isEmpty then some .root else firstComponent? first
    start.toList ++ rest.filterMap component?

/-- Whether two texts are the same path. -/
def same (p q : Path) : Bool := p.components == q.components

/-! ## The file name -/

/-- A path, last character first, without the slashes at its end and the names `.` among them. -/
def dropTrailing : List Char → List Char
  | '/' :: rest => dropTrailing rest
  | '.' :: '/' :: rest => dropTrailing rest
  | rest => rest

/-- A path cut before its last name: what stands before it, and the name. What stands after the name
says nothing and is left out. -/
def splitName (text : List Char) : List Char × List Char :=
  let reversed := dropTrailing text.reverse
  ((reversed.dropWhile (· != '/')).reverse, (reversed.takeWhile (· != '/')).reverse)

/-- Whether a last name is a file name. -/
def isFileName (name : List Char) : Bool :=
  !(name == [] || name == ['.'] || name == ['.', '.'])

/-- A path cut before its file name, if it has one. -/
def splitFileName? (text : List Char) : Option (List Char × List Char) :=
  let (before, name) := splitName text
  if isFileName name then some (before, name) else none

/-- The path up to the last name: the directory that the name is in. A path of no name but the root
has none. -/
def parent? (p : Path) : Option Path :=
  let (before, name) := splitName p.text.toList
  if name = [] then none else some ⟨String.ofList before⟩

/-- A name cut at its last dot, if there is one that counts: the stem and the extension. -/
def splitExtension (name : List Char) : List Char × Option (List Char) :=
  let reversed := name.reverse
  match reversed.dropWhile (· != '.') with
  | _ :: stem =>
    if stem.isEmpty then (name, none)
    else (stem.reverse, some (reversed.takeWhile (· != '.')).reverse)
  | [] => (name, none)

/-- The stem of the file name. -/
def fileStem? (p : Path) : Option String :=
  (splitFileName? p.text.toList).map fun (_, name) => String.ofList (splitExtension name).1

/-- The extension of the file name. -/
def extension? (p : Path) : Option String :=
  (splitFileName? p.text.toList).bind fun (_, name) => (splitExtension name).2.map String.ofList

/-! ## Changing the extension -/

/-- A text, last character first, after as many whole characters as take no more than `n` bytes. -/
def dropBytesUpTo : Nat → List Char → List Char
  | _, [] => []
  | n, c :: rest => if c.utf8Size ≤ n then dropBytesUpTo (n - c.utf8Size) rest else c :: rest

/-- The text up to the end of the file stem, and the extension after a dot; a text without a file
name stays as it is. -/
def setExtension (text extension : List Char) : List Char :=
  match splitFileName? text with
  | some (before, name) => before ++ (splitExtension name).1 ++ '.' :: extension
  | none => text

/-- The path with another extension. First as many bytes as the old extension has are taken off
the end of the text; what is then the file name gets the new extension. -/
def withExtension (p : Path) (extension : String) : Path :=
  let text := p.text.toList
  let text := match p.extension? with
    | some old => (dropBytesUpTo (byteLength old.toList) text.reverse).reverse
    | none => text
  ⟨String.ofList (setExtension text extension.toList)⟩

end Path

end SequenceXmi
