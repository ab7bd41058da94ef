/-! # TOML values and tables

A TOML document is a table of named values. Tables come into being in four ways, and how a table
came into being decides who may add to it later:

- *implied* by the header of a table inside it: its own header may still follow, until a key with
  dots adds to it and makes it a dotted one;
- by its own *header*: it takes the lines below the header, and no second header;
- *dotted*, by a key with dots: further keys with dots may add to it, a header may not;
- *inline*, between braces: nothing may be added.

Only text and truth values keep their content; of dates it matters only that they are well formed,
and of numbers also whether they fit where numbers are stored. A number that does not fit is no
fault of the document: it is one of whoever asks for its value. -/

namespace SequenceXmi.Toml

/-! ## Values -/

/-- How a table came into being. -/
inductive Origin where
  | implied
  | header
  | dotted
  | inline
  deriving DecidableEq, Repr

/-- A TOML value. -/
inductive Value where
  | string (text : String)
  | boolean (value : Bool)
  /-- An integer or a floating point number, and whether its value fits. -/
  | number (fits : Bool)
  /-- A date, a time of day, or both. -/
  | moment
  | array (items : List Value)
  | table (origin : Origin) (entries : List (String × Value))
  /-- The tables that share one header in double brackets. -/
  | tables (items : List (List (String × Value)))
  deriving Repr, Inhabited

/-- The entries of a table, in the order in which their keys first appeared. -/
abbrev Entries := List (String × Value)

mutual

/-- Whether every number in a value fits. -/
def Value.fits : Value → Bool
  | .string _ | .boolean _ | .moment => true
  | .number fits => fits
  | .array items => allFit items
  | .table _ entries => entriesFit entries
  | .tables items => tablesFit items

/-- Whether every number in some values fits. -/
def allFit : List Value → Bool
  | [] => true
  | item :: items => item.fits && allFit items

/-- Whether every number in a table fits. -/
def entriesFit : List (String × Value) → Bool
  | [] => true
  | (_, value) :: entries => value.fits && entriesFit entries

/-- Whether every number in some tables fits. -/
def tablesFit : List (List (String × Value)) → Bool
  | [] => true
  | entries :: tables => entriesFit entries && tablesFit tables

end

/-- Why a text is no TOML document. -/
inductive Fault where
  /-- The text breaks the grammar. -/
  | malformed
  /-- A key is given a second value. -/
  | duplicate (key : String)
  /-- Something is added to what cannot take it. -/
  | closed (key : String)
  /-- Values stand too deep inside each other. -/
  | tooDeep
  deriving DecidableEq, Repr

/-- The fault in words. -/
def Fault.text : Fault → String
  | .malformed => "the text is not well formed"
  | .duplicate key => "duplicate key `" ++ key ++ "`"
  | .closed key => "nothing can be added to `" ++ key ++ "`"
  | .tooDeep => "values are nested too deeply"

/-! ## Adding to tables -/

namespace Entries

/-- Sets the value of a key, in place if the key is there. -/
def set : Entries → String → Value → Entries
  | [], key, value => [(key, value)]
  | (k, v) :: rest, key, value =>
    if k = key then (k, value) :: rest else (k, v) :: set rest key value

/-- The value of a key. -/
def get? (entries : Entries) (key : String) : Option Value := entries.lookup key

/-- Changes the table that a path leads to. Tables that are missing on the way come into being; a
path of an array of tables leads to the last of them. With `dotted`, the path is part of a key, and
every table on it becomes a dotted one, unless it has a header. -/
def change (dotted : Bool) (f : Origin → Entries → Except Fault Entries) :
    List String → Origin → Entries → Except Fault Entries
  | [], origin, entries => f origin entries
  | key :: path, _, entries =>
    match entries.get? key with
    | none => do
      let origin := if dotted then Origin.dotted else .implied
      return entries.set key (.table origin (← change dotted f path origin []))
    | some (.table .inline _) => throw (.closed key)
    | some (.table origin inner) => do
      if dotted && origin == .header then throw (.duplicate key)
      let origin := if dotted then Origin.dotted else origin
      return entries.set key (.table origin (← change dotted f path origin inner))
    | some (.tables items) =>
      match items.getLast? with
      | some last => do
        return entries.set key (.tables (items.dropLast ++ [← change dotted f path .header last]))
      | none => throw (.closed key)
    | some _ => throw (.closed key)

/-- Gives a value to a key with dots before its last part. -/
def assign (path : List String) (key : String) (value : Value) :
    Origin → Entries → Except Fault Entries :=
  change true
    (fun origin entries => do
      if (origin == .dotted) == path.isEmpty then throw (.duplicate key)
      if (entries.get? key).isSome then throw (.duplicate key)
      return entries ++ [(key, value)])
    path

/-- Opens the table of a header. -/
def openTable (path : List String) (key : String) : Entries → Except Fault Entries :=
  change false
    (fun _ entries =>
      match entries.get? key with
      | none => return entries.set key (.table .header [])
      | some (.table .implied inner) => return entries.set key (.table .header inner)
      | some _ => throw (.duplicate key))
    path .header

/-- Opens one more table of a header in double brackets. -/
def openNext (path : List String) (key : String) : Entries → Except Fault Entries :=
  change false
    (fun _ entries =>
      match entries.get? key with
      | none => return entries.set key (.tables [[]])
      | some (.tables items) => return entries.set key (.tables (items ++ [[]]))
      | some _ => throw (.duplicate key))
    path .header

end Entries

end SequenceXmi.Toml
