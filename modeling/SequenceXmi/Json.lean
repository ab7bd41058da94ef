/-! # JSON text

The JSON values that a diagram needs: strings, arrays, and objects whose fields keep their order.
They are written without any space (`compact`) or with one value a line (`pretty`). -/

namespace SequenceXmi

/-- A JSON value of strings, arrays and objects. -/
inductive Json where
  | str (text : String)
  | arr (items : List Json)
  | obj (fields : List (String × Json))
  deriving Repr, Inhabited

namespace Json

/-! ## Strings -/

/-- A hexadecimal digit in lower case. -/
def hexDigit (n : Nat) : Char := Nat.digitChar n

/-- A character inside a JSON string: quotation mark, backslash and control characters below U+0020
are escaped, with a short form where JSON has one. -/
def escaped (c : Char) : List Char :=
  if c = '"' then ['\\', '"']
  else if c = '\\' then ['\\', '\\']
  else if c = '\x08' then ['\\', 'b']
  else if c = '\x0c' then ['\\', 'f']
  else if c = '\n' then ['\\', 'n']
  else if c = '\r' then ['\\', 'r']
  else if c = '\t' then ['\\', 't']
  else if c.toNat < 0x20 then
    ['\\', 'u', '0', '0', hexDigit (c.toNat / 16), hexDigit (c.toNat % 16)]
  else [c]

/-- A text as a JSON string. -/
def quoted (text : String) : List Char := '"' :: (text.toList.flatMap escaped ++ ['"'])

/-! ## Compact text -/

mutual

/-- The value without any space. -/
def compactText : Json → List Char
  | .str text => quoted text
  | .arr items => '[' :: (compactItems items ++ [']'])
  | .obj fields => '\x7b' :: (compactFields fields ++ ['\x7d'])

/-- Items with commas in between. -/
def compactItems : List Json → List Char
  | [] => []
  | [item] => compactText item
  | item :: items => compactText item ++ ',' :: compactItems items

/-- Fields with commas in between. -/
def compactFields : List (String × Json) → List Char
  | [] => []
  | [(key, value)] => quoted key ++ ':' :: compactText value
  | (key, value) :: fields => quoted key ++ ':' :: compactText value ++ ',' :: compactFields fields

end

/-- The value on one line, without any space. -/
def compact (j : Json) : String := String.ofList j.compactText

/-! ## Pretty text -/

/-- A new line at a depth of nesting: two spaces for each level. -/
def newLine (depth : Nat) : List Char := '\n' :: List.replicate (2 * depth) ' '

mutual

/-- The value with each item and field on a line of its own; empty lists stay together. -/
def prettyText (depth : Nat) : Json → List Char
  | .str text => quoted text
  | .arr [] => ['[', ']']
  | .arr items => '[' :: (prettyItems (depth + 1) items ++ newLine depth ++ [']'])
  | .obj [] => ['\x7b', '\x7d']
  | .obj fields => '\x7b' :: (prettyFields (depth + 1) fields ++ newLine depth ++ ['\x7d'])

/-- Items, each on a new line, with commas in between. -/
def prettyItems (depth : Nat) : List Json → List Char
  | [] => []
  | [item] => newLine depth ++ prettyText depth item
  | item :: items => newLine depth ++ prettyText depth item ++ ',' :: prettyItems depth items

/-- Fields, each on a new line, with commas in between. -/
def prettyFields (depth : Nat) : List (String × Json) → List Char
  | [] => []
  | [(key, value)] => newLine depth ++ quoted key ++ ':' :: ' ' :: prettyText depth value
  | (key, value) :: fields =>
    newLine depth ++ quoted key ++ ':' :: ' ' :: prettyText depth value ++
      ',' :: prettyFields depth fields

end

/-- The value with one item or field a line, indented by two spaces. -/
def pretty (j : Json) : String := String.ofList (j.prettyText 0)

end Json

end SequenceXmi
