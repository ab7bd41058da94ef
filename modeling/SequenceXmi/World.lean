import SequenceXmi.Host
import SequenceXmi.Text.Split

/-! # A world of files

A `World` is a host that is a value: a tree of files and directories without links, a working
directory, and the text that was shown. Paths lead through the tree name by name; `..` leads up,
and a path can only pass through directories that are there.

A world may also refuse an operation, at one path and not at another, to say what happens when a
system fails. -/

namespace SequenceXmi

open Mermaid (Warning)
open Text (splitOn byteLength)

/-! ## Trees of files -/

/-- A place in the tree: the names that lead to it from the root. -/
abbrev Location := List String

/-- What there is at a place. -/
inductive Node where
  | file (content : ByteArray)
  | directory

/-- Files are compared byte by byte. -/
def Node.decEq : (a b : Node) → Decidable (a = b)
  | .file a, .file b =>
    if h : a.data = b.data then isTrue (congrArg Node.file (ByteArray.ext h))
    else isFalse fun e => h (congrArg ByteArray.data (Node.file.inj e))
  | .directory, .directory => isTrue rfl
  | .file _, .directory => isFalse nofun
  | .directory, .file _ => isFalse nofun

instance : DecidableEq Node := Node.decEq

/-- A tree of files and directories. -/
structure FileTree where
  /-- All places but the root, each with what is there. -/
  nodes : List (Location × Node)
  /-- The working directory, from which relative paths start. -/
  working : Location
  deriving DecidableEq

namespace FileTree

/-- What there is at a place; the root is always a directory. -/
def node? (t : FileTree) (place : Location) : Option Node :=
  if place = [] then some .directory else t.nodes.lookup place

/-- The tree without what is at a place. -/
def erase (t : FileTree) (place : Location) : FileTree :=
  { t with nodes := t.nodes.filter (·.1 != place) }

/-- The tree with something else at a place. -/
def put (t : FileTree) (place : Location) (node : Node) : FileTree :=
  { t with nodes := (t.erase place).nodes ++ [(place, node)] }

/-- Looking up a place passes over the nodes of other places. -/
theorem lookup_filter_ne (nodes : List (Location × Node)) {place other : Location}
    (h : other ≠ place) : (nodes.filter (·.1 != place)).lookup other = nodes.lookup other := by
  induction nodes with
  | nil => rfl
  | cons n nodes ih =>
    obtain ⟨first, node⟩ := n
    by_cases hn : first = place
    · subst hn; simp [List.lookup_cons, beq_false_of_ne h, ih]
    · simp [List.lookup_cons, hn, ih]

theorem lookup_filter_self (nodes : List (Location × Node)) (place : Location) :
    (nodes.filter (·.1 != place)).lookup place = none := by
  simp only [List.lookup_eq_none_iff, List.mem_filter, bne_iff_ne]
  exact fun _ hp => hp.2.symm

@[simp] theorem node?_put_self (t : FileTree) {place : Location} (node : Node) (h : place ≠ []) :
    (t.put place node).node? place = some node := by
  simp [node?, put, erase, h, List.lookup_append, lookup_filter_self]

theorem node?_put_ne (t : FileTree) {place other : Location} (node : Node) (h : other ≠ place) :
    (t.put place node).node? other = t.node? other := by
  simp [node?, put, erase, List.lookup_append, List.lookup_cons, lookup_filter_ne _ h,
    beq_false_of_ne h]

theorem node?_erase_self (t : FileTree) {place : Location} (h : place ≠ []) :
    (t.erase place).node? place = none := by
  simp [node?, erase, h, lookup_filter_self]

theorem node?_erase_ne (t : FileTree) {place other : Location} (h : other ≠ place) :
    (t.erase place).node? other = t.node? other := by
  simp [node?, erase, lookup_filter_ne _ h]

/-! ## Following paths -/

/-- The greatest number of bytes in a name. -/
def maxName : Nat := 255

/-- The greatest number of bytes in a path. -/
def maxPath : Nat := 4095

/-- Whether a name is longer than any name in the tree may be. -/
def isTooLong (name : String) : Bool := maxName < byteLength name.toList

/-- Follows names from a place. Every name needs a directory to start from, also the empty name
after a slash at the end. -/
def follow (t : FileTree) (place : Location) : List String → Except FileFault Location
  | [] => .ok place
  | name :: rest =>
    match t.node? place with
    | none => .error .notFound
    | some (.file _) => .error .notADirectory
    | some .directory =>
      if name = "" ∨ name = "." then t.follow place rest
      else if name = ".." then t.follow place.dropLast rest
      else if isTooLong name then .error .nameTooLong
      else t.follow (place ++ [name]) rest

/-- The names in a path, from one slash to the next. -/
def names (path : Path) : List String := (splitOn '/' path.text.toList).map String.ofList

/-- Where a path starts. -/
def origin (t : FileTree) (path : Path) : Location :=
  if path.text.toList.head? = some '/' then [] else t.working

/-- A path that leads nowhere in any tree. -/
def check (path : Path) : Except FileFault Unit :=
  if path.text.toList.contains '\x00' then .error .invalidPath
  else if path.text.isEmpty then .error .notFound
  else if maxPath < byteLength path.text.toList then .error .nameTooLong
  else .ok ()

/-- The place that a path leads to; there may be nothing there. -/
def locate (t : FileTree) (path : Path) : Except FileFault Location := do
  check path
  t.follow (t.origin path) (names path)

/-- What a path leads to. -/
def at? (t : FileTree) (path : Path) : Except FileFault Node := do
  match t.node? (← t.locate path) with
  | some node => return node
  | none => throw .notFound

/-! ## Operations -/

/-- The content of a file. -/
def content (t : FileTree) (path : Path) : Except FileFault ByteArray := do
  match ← t.at? path with
  | .file bytes => return bytes
  | .directory => throw .isADirectory

/-- A name longer than every name in the tree, and so one that nothing has. -/
def unusedName (t : FileTree) : String :=
  let longest := (t.nodes.map fun (place, _) => (place.getLastD "").length).foldl max 0
  String.ofList (".tmp".toList ++ List.replicate (longest + 1) 'x')

/-- Makes an empty file of an unused name in a directory. -/
def stage (t : FileTree) (directory : Path) : Except FileFault (Location × FileTree) := do
  let place ← t.locate directory
  match t.node? place with
  | none => throw .notFound
  | some (.file _) => throw .notADirectory
  | some .directory =>
    let file := place ++ [t.unusedName]
    return (file, t.put file (.file .empty))

/-- The place that a file can be moved to, for a path to it. The path must end in a name, and not
in a slash, and there must be no directory of that name. -/
def target (t : FileTree) (path : Path) : Except FileFault Location := do
  check path
  let all := names path
  let trimmed := all.reverse.dropWhile (· = "")
  match trimmed with
  | [] => throw .busy
  | last :: before =>
    let parent ← t.follow (t.origin path) before.reverse
    match t.node? parent with
    | none => throw .notFound
    | some (.file _) => throw .notADirectory
    | some .directory =>
      if last = "." ∨ last = ".." then throw .busy
      else if isTooLong last then throw .nameTooLong
      else if trimmed.length ≠ all.length then throw .notADirectory
      else
        let place := parent ++ [last]
        match t.node? place with
        | some .directory => throw .isADirectory
        | _ => return place

/-- Moves a file, which replaces any file at the path. -/
def move (t : FileTree) (file : Location) (path : Path) : Except FileFault FileTree := do
  let place ← t.target path
  match t.node? file with
  | none => throw .notFound
  | some node => return (t.erase file).put place node

end FileTree

/-! ## Worlds -/

/-- The operations that a world may refuse, each with what it works on. -/
inductive Operation where
  /-- To see whether there is anything at a path. -/
  | look (path : Path)
  | read (path : Path)
  | stage (directory : Path)
  | fill (file : Location)
  | publish (file : Location) (path : Path)
  deriving DecidableEq, Repr

/-- A host that is a value. -/
structure World where
  tree : FileTree
  /-- The operations that fail in this world, and how; a refused operation changes nothing. -/
  refuses : Operation → Option FileFault
  /-- What has been shown. -/
  shown : String
  /-- The warnings that have been reported. -/
  reported : List Warning

namespace World

/-- A world where nothing is refused and nothing has been shown. -/
def ofTree (tree : FileTree) : World := ⟨tree, fun _ => none, "", []⟩

/-- Whether anything is seen at a path: it is there, and the world does not refuse to look. -/
def sees (w : World) (path : Path) : Bool :=
  (w.refuses (.look path)).isNone && (w.tree.at? path).isOk

theorem isOk_at?_of_sees {w : World} {path : Path} (h : w.sees path) :
    (w.tree.at? path).isOk := by
  rw [sees, Bool.and_eq_true] at h
  exact h.2

/-- An operation that the world may refuse. -/
def operate {α : Type} (operation : Operation)
    (run : FileTree → Except FileFault (α × FileTree)) : StateM World (Except FileFault α) :=
  fun w =>
    match w.refuses operation with
    | some fault => (.error fault, w)
    | none =>
      match run w.tree with
      | .error fault => (.error fault, w)
      | .ok (a, tree) => (.ok a, { w with tree })

/-- Conversions run on a world; what they leave is the world after them. -/
instance : Host (StateM World) Location where
  isThere path := fun w => (w.sees path, w)
  readBytes path := operate (.read path) fun t => (t.content path).map (·, t)
  stage directory := operate (.stage directory) fun t => t.stage directory
  fill file bytes := operate (.fill file) fun t => .ok ((), t.put file (.file bytes))
  publish file path := operate (.publish file path) fun t => (t.move file path).map ((), ·)
  discard file := fun w => ((), { w with tree := w.tree.erase file })
  print text := fun w => ((), { w with shown := w.shown ++ text })
  report warning := fun w => ((), { w with reported := w.reported ++ [warning] })

end World

end SequenceXmi
