import Mathlib.Tactic.SplitIfs
import SequenceXmi.Proofs.Json.Reader
import SequenceXmi.Proofs.Text.Scanning

/-! # JSON text that is written is read back

A value is written as its tokens, with white space in front of some of them. Both layouts write the
same tokens, and that is all that a reader sees (`Spells`).

Main results: `read?_compact` and `read?_pretty`. A text is cut into the tokens that it spells
(`scanAll_of_spells`), and the tokens of a value, wherever a value may come, are put together to the
value (`foldlM_tokens`). -/

namespace SequenceXmi.Json

open Text (Spaces Stops afterSpaces afterSpaces_append digits? isSpace scanAll scanAll_of_none
  scanAll_of_some spaces_nil stops_cons stops_nil)

/-! ## Characters -/

/-- The forms that a character takes in a string. -/
inductive WrittenAs (c : Char) : List Char → Prop where
  /-- A short escape. -/
  | short {e : Char} (h : shortEscapes.lookup e = some c) : WrittenAs c ['\\', e]
  /-- Its number, in four digits of which the first two are zero. -/
  | numbered (h : c.toNat < 0x20) : WrittenAs c
    ['\\', 'u', '0', '0', hexDigit (c.toNat / 16), hexDigit (c.toNat % 16)]
  /-- The character itself. -/
  | plain (h : ¬ (c = '"' ∨ c = '\\' ∨ c.toNat < 0x20)) : WrittenAs c [c]

theorem WrittenAs.of_eq {c d e : Char} (h : c = d) (hlookup : shortEscapes.lookup e = some d) :
    WrittenAs c ['\\', e] := .short (h ▸ hlookup)

theorem writtenAs_escaped (c : Char) : WrittenAs c (escaped c) := by
  unfold escaped
  split_ifs with hquote hbackslash hb hf hn hr ht hcontrol
  · exact .of_eq hquote rfl
  · exact .of_eq hbackslash rfl
  · exact .of_eq hb rfl
  · exact .of_eq hf rfl
  · exact .of_eq hn rfl
  · exact .of_eq hr rfl
  · exact .of_eq ht rfl
  · exact .numbered hcontrol
  · exact .plain (by simp [hquote, hbackslash, hcontrol])

/-- A number below U+0020 in four digits. -/
theorem scanUnit_control {n : Nat} (h : n < 0x20) (rest : List Char) :
    scanUnit ('0' :: '0' :: hexDigit (n / 16) :: hexDigit (n % 16) :: rest) = some (n, rest) := by
  have hdigits : ∀ n < 0x20,
      digits? 16 ['0', '0', hexDigit (n / 16), hexDigit (n % 16)] = some n := by
    decide
  unfold scanUnit
  rw [if_neg (by simp)]
  show (digits? 16 ['0', '0', hexDigit (n / 16), hexDigit (n % 16)]).map _ = _
  rw [hdigits n h]
  rfl

/-- A character is read back, whatever form it takes. -/
theorem WrittenAs.scanChar_append {c : Char} {text : List Char} (h : WrittenAs c text)
    (rest : List Char) : scanChar (text ++ rest) = some (c, rest) := by
  cases h with
  | @short e h =>
    -- The letter of an escape by number is none of the short ones.
    have hu : e ≠ 'u' := by
      rintro rfl
      cases h
    have hscan : scanChar ('\\' :: e :: rest) = (shortEscapes.lookup e).map (·, rest) := by
      simp [scanChar]
    show scanChar ('\\' :: e :: rest) = _
    rw [hscan, h]
    rfl
  | numbered h =>
    have hvalid : c.toNat.isValidChar := c.valid
    show scanNumbered ('0' :: '0' :: hexDigit (c.toNat / 16) :: hexDigit (c.toNat % 16) :: rest) = _
    unfold scanNumbered
    rw [scanUnit_control h, Option.bind_eq_bind, Option.bind_some]
    dsimp only
    rw [if_pos hvalid, Char.ofNat_toNat]
    rfl
  | plain h =>
    rw [not_or, not_or, Nat.not_lt] at h
    show scanChar (c :: rest) = _
    simp [scanChar, h]

/-! ## Strings -/

theorem WrittenAs.length_pos {c : Char} {text : List Char} (h : WrittenAs c text) :
    0 < text.length := by
  cases h <;> exact Nat.succ_pos _

/-- The characters of a string are read back up to its end. -/
theorem scanAll_escaped (chars rest : List Char) :
    scanAll scanChar (chars.flatMap escaped ++ '"' :: rest) = (chars, '"' :: rest) := by
  induction chars with
  | nil => exact scanAll_of_none rfl
  | cons c chars ih =>
    have hscan := (writtenAs_escaped c).scanChar_append (chars.flatMap escaped ++ '"' :: rest)
    have hlength := (writtenAs_escaped c).length_pos
    rw [List.flatMap_cons, List.append_assoc, scanAll_of_some hscan, ih]
    simp only [List.length_append]
    omega

theorem scanString_quoted (text : String) (rest : List Char) :
    scanString (text.toList.flatMap escaped ++ '"' :: rest) = some (text, rest) := by
  unfold scanString
  rw [scanAll_escaped]
  simp

/-! ## Tokens -/

/-- How a token is written. -/
def Token.text : Token → List Char
  | .arrayStart => ['[']
  | .arrayEnd => [']']
  | .objectStart => ['\x7b']
  | .objectEnd => ['\x7d']
  | .comma => [',']
  | .colon => [':']
  | .str text => quoted text

/-- A token is read back, with any white space in front of it. -/
theorem scanToken_append (t : Token) {space : List Char} (h : Spaces space) (rest : List Char) :
    scanToken (space ++ (t.text ++ rest)) = some (t, rest) := by
  have hstop : Stops isSpace (t.text ++ rest) := by
    cases t <;> exact stops_cons.mpr rfl
  unfold scanToken
  rw [afterSpaces_append h hstop]
  -- All signs are found in the table; only strings have to be scanned.
  cases t with
  | str text =>
    have hquoted : (Token.str text).text ++ rest =
        '"' :: (text.toList.flatMap escaped ++ '"' :: rest) := by
      simp [Token.text, quoted]
    rw [hquoted]
    show (scanString (text.toList.flatMap escaped ++ '"' :: rest)).map _ = _
    rw [scanString_quoted]
    rfl
  | arrayStart | arrayEnd | objectStart | objectEnd | comma | colon => rfl

/-- The text spells the tokens, one after another, with white space in front of each and at the
end. -/
inductive Spells : List Token → List Char → Prop where
  | nil {space : List Char} (h : Spaces space) : Spells [] space
  | cons {space text : List Char} {t : Token} {ts : List Token} (h : Spaces space)
    (rest : Spells ts text) : Spells (t :: ts) (space ++ (t.text ++ text))

namespace Spells

variable {ts us : List Token} {a b : List Char}

/-- More white space in front. -/
theorem space {s : List Char} (hs : Spaces s) (h : Spells ts a) : Spells ts (s ++ a) := by
  cases h with
  | nil hspace => exact .nil (hs.append hspace)
  | cons hspace hrest =>
    rw [← List.append_assoc]
    exact .cons (hs.append hspace) hrest

theorem append (h : Spells ts a) (h' : Spells us b) : Spells (ts ++ us) (a ++ b) := by
  induction h with
  | nil hspace => exact h'.space hspace
  | cons hspace _ ih =>
    rw [List.append_assoc, List.append_assoc]
    exact .cons hspace ih

/-- One token. -/
theorem token (t : Token) : Spells [t] t.text := by
  have hone := Spells.cons (t := t) spaces_nil (.nil spaces_nil)
  simpa using hone

/-- One token in front. -/
theorem token_append (t : Token) (h : Spells ts a) : Spells (t :: ts) (t.text ++ a) :=
  (token t).append h

end Spells

/-- A text is cut into the tokens that it spells. -/
theorem scanAll_of_spells {ts : List Token} {text : List Char} (h : Spells ts text) :
    ∃ space, Spaces space ∧ scanAll scanToken text = (ts, space) := by
  induction h with
  | @nil space hspace =>
    refine ⟨space, hspace, scanAll_of_none ?_⟩
    have hafter := afterSpaces_append hspace (stops_nil isSpace)
    rw [List.append_nil] at hafter
    unfold scanToken
    rw [hafter]
  | @cons space text t ts hspace _ ih =>
    obtain ⟨last, hlast, hscan⟩ := ih
    have hlength : 0 < t.text.length := by cases t <;> simp [Token.text, quoted]
    refine ⟨last, hlast, ?_⟩
    rw [scanAll_of_some (scanToken_append t hspace text), hscan]
    simp only [List.length_append]
    omega

/-! ## The tokens of a value -/

mutual

/-- The tokens that a value is written with. -/
def tokens : Json → List Token
  | .str text => [.str text]
  | .arr items => .arrayStart :: (itemTokens items ++ [.arrayEnd])
  | .obj fields => .objectStart :: (fieldTokens fields ++ [.objectEnd])

/-- The tokens of items, with commas in between. -/
def itemTokens : List Json → List Token
  | [] => []
  | [item] => tokens item
  | item :: items => tokens item ++ .comma :: itemTokens items

/-- The tokens of fields, with commas in between. -/
def fieldTokens : List (String × Json) → List Token
  | [] => []
  | [(key, j)] => .str key :: .colon :: tokens j
  | (key, j) :: fields => .str key :: .colon :: tokens j ++ .comma :: fieldTokens fields

end

/-! ### Compact text -/

mutual

theorem spells_compactText : ∀ j : Json, Spells j.tokens j.compactText
  | .str text => .token (.str text)
  | .arr items => .token_append .arrayStart ((spells_compactItems items).append (.token .arrayEnd))
  | .obj fields =>
    .token_append .objectStart ((spells_compactFields fields).append (.token .objectEnd))

theorem spells_compactItems : ∀ items : List Json, Spells (itemTokens items) (compactItems items)
  | [] => .nil spaces_nil
  | [item] => spells_compactText item
  | item :: next :: items =>
    (spells_compactText item).append (.token_append .comma (spells_compactItems (next :: items)))

theorem spells_compactFields : ∀ fields : List (String × Json),
    Spells (fieldTokens fields) (compactFields fields)
  | [] => .nil spaces_nil
  | [(key, j)] => .token_append (.str key) (.token_append .colon (spells_compactText j))
  | (key, j) :: next :: fields =>
    (Spells.token_append (.str key) (.token_append .colon (spells_compactText j))).append
      (.token_append .comma (spells_compactFields (next :: fields)))

end

/-! ### Pretty text -/

theorem spaces_newLine (depth : Nat) : Spaces (newLine depth) := by
  intro c hc
  rcases List.mem_cons.mp hc with rfl | hc
  · rfl
  · rw [List.eq_of_mem_replicate hc]
    rfl

/-- The space between a colon and its value. -/
theorem spaces_space : Spaces [' '] := by
  intro c hc
  obtain rfl := List.mem_singleton.mp hc
  rfl

/-- A key with its colon, on a new line. -/
theorem spells_key (depth : Nat) (key : String) {ts : List Token} {a : List Char}
    (h : Spells ts a) :
    Spells (.str key :: .colon :: ts) (newLine depth ++ quoted key ++ ':' :: ' ' :: a) :=
  ((Spells.token (.str key)).space (spaces_newLine depth)).append
    (.token_append .colon (h.space spaces_space))

/-- What ends a container, on a new line. -/
theorem spells_last (depth : Nat) (t : Token) {ts : List Token} {a : List Char}
    (h : Spells ts a) : Spells (ts ++ [t]) (a ++ newLine depth ++ t.text) := by
  rw [List.append_assoc]
  exact h.append ((Spells.token t).space (spaces_newLine depth))

mutual

theorem spells_prettyText : ∀ (depth : Nat) (j : Json), Spells j.tokens (j.prettyText depth)
  | _, .str text => .token (.str text)
  | _, .arr [] => .token_append .arrayStart (.token .arrayEnd)
  | depth, .arr (item :: items) =>
    .token_append .arrayStart
      (spells_last depth .arrayEnd (spells_prettyItems (depth + 1) (item :: items)))
  | _, .obj [] => .token_append .objectStart (.token .objectEnd)
  | depth, .obj (field :: fields) =>
    .token_append .objectStart
      (spells_last depth .objectEnd (spells_prettyFields (depth + 1) (field :: fields)))

theorem spells_prettyItems : ∀ (depth : Nat) (items : List Json),
    Spells (itemTokens items) (prettyItems depth items)
  | _, [] => .nil spaces_nil
  | depth, [item] => (spells_prettyText depth item).space (spaces_newLine depth)
  | depth, item :: next :: items =>
    ((spells_prettyText depth item).space (spaces_newLine depth)).append
      (.token_append .comma (spells_prettyItems depth (next :: items)))

theorem spells_prettyFields : ∀ (depth : Nat) (fields : List (String × Json)),
    Spells (fieldTokens fields) (prettyFields depth fields)
  | _, [] => .nil spaces_nil
  | depth, [(key, j)] => spells_key depth key (spells_prettyText depth j)
  | depth, (key, j) :: next :: fields =>
    (spells_key depth key (spells_prettyText depth j)).append
      (.token_append .comma (spells_prettyFields depth (next :: fields)))

end

/-! ## Putting tokens together -/

/-- A value does not begin with what ends an array. -/
theorem exists_tokens_eq_cons (j : Json) : ∃ t ts, j.tokens = t :: ts ∧ t ≠ .arrayEnd := by
  cases j with
  | str text => exact ⟨.str text, [], rfl, by simp⟩
  | arr items => exact ⟨.arrayStart, itemTokens items ++ [.arrayEnd], rfl, by simp⟩
  | obj fields => exact ⟨.objectStart, fieldTokens fields ++ [.objectEnd], rfl, by simp⟩

/-- The first item of an array may come where any value may. -/
theorem foldlM_firstItem (item : Json) (items : List Json) (rest : List Token)
    (stack : List Container) :
    (itemTokens (item :: items) ++ rest).foldlM next? (.firstItem stack) =
      (itemTokens (item :: items) ++ rest).foldlM next? (.value (.arr [] :: stack)) := by
  obtain ⟨t, ts, htokens, ht⟩ := exists_tokens_eq_cons item
  have hfirst : ∃ us, itemTokens (item :: items) = t :: us := by
    cases items with
    | nil => exact ⟨ts, htokens⟩
    | cons next items =>
      show ∃ us, tokens item ++ .comma :: itemTokens (next :: items) = t :: us
      rw [htokens]
      exact ⟨_, rfl⟩
  obtain ⟨us, hus⟩ := hfirst
  have hstep : next? (.firstItem stack) t = next? (.value (.arr [] :: stack)) t := by
    cases t with
    | arrayEnd => exact absurd rfl ht
    | arrayStart | objectStart | objectEnd | comma | colon | str => rfl
  rw [hus, List.cons_append, List.foldlM_cons, List.foldlM_cons, hstep]

/-- The first key of an object may come where any key may. -/
theorem foldlM_firstKey (field : String × Json) (fields : List (String × Json))
    (rest : List Token) (stack : List Container) :
    (fieldTokens (field :: fields) ++ rest).foldlM next? (.firstKey stack) =
      (fieldTokens (field :: fields) ++ rest).foldlM next? (.key [] stack) := by
  obtain ⟨key, j⟩ := field
  have hfirst : ∃ us, fieldTokens ((key, j) :: fields) = .str key :: us := by
    cases fields with
    | nil => exact ⟨_, rfl⟩
    | cons next fields => exact ⟨_, rfl⟩
  obtain ⟨us, hus⟩ := hfirst
  rw [hus]
  rfl

mutual

/-- Where a value may come, its tokens are put together to the value. -/
theorem foldlM_tokens : ∀ (j : Json) (stack : List Container),
    j.tokens.foldlM next? (.value stack) = some (.ended j stack)
  | .str _, _ => rfl
  | .arr [], _ => rfl
  | .arr (item :: items), stack => by
    have hitems := foldlM_itemTokens (item :: items) [] stack (List.cons_ne_nil _ _)
    show (itemTokens (item :: items) ++ [Token.arrayEnd]).foldlM next? (.firstItem stack) = _
    rw [foldlM_firstItem, hitems, List.nil_append]
  | .obj [], _ => rfl
  | .obj (field :: fields), stack => by
    have hfields := foldlM_fieldTokens (field :: fields) [] stack (List.cons_ne_nil _ _)
    show (fieldTokens (field :: fields) ++ [Token.objectEnd]).foldlM next? (.firstKey stack) = _
    rw [foldlM_firstKey, hfields, List.nil_append]

/-- Items go behind those that are there already. -/
theorem foldlM_itemTokens : ∀ (items before : List Json) (stack : List Container), items ≠ [] →
    (itemTokens items ++ [Token.arrayEnd]).foldlM next? (.value (.arr before :: stack)) =
      some (.ended (.arr (before ++ items)) stack)
  | [], _, _, h => absurd rfl h
  | [item], before, stack, _ => by
    show (tokens item ++ [Token.arrayEnd]).foldlM next? _ = _
    rw [List.foldlM_append, foldlM_tokens item, Option.bind_eq_bind, Option.bind_some]
    rfl
  | item :: next :: items, before, stack, _ => by
    have hrest := foldlM_itemTokens (next :: items) (before ++ [item]) stack
      (List.cons_ne_nil _ _)
    show ((tokens item ++ Token.comma :: itemTokens (next :: items)) ++
      [Token.arrayEnd]).foldlM next? _ = _
    rw [List.append_assoc, List.foldlM_append, foldlM_tokens item, Option.bind_eq_bind,
      Option.bind_some]
    rw [List.append_assoc] at hrest
    -- The comma puts the item behind the others, and a value may come again.
    exact hrest

/-- Fields go behind those that are there already. -/
theorem foldlM_fieldTokens : ∀ (fields before : List (String × Json)) (stack : List Container),
    fields ≠ [] →
    (fieldTokens fields ++ [Token.objectEnd]).foldlM next? (.key before stack) =
      some (.ended (.obj (before ++ fields)) stack)
  | [], _, _, h => absurd rfl h
  | [(key, j)], before, stack, _ => by
    show (tokens j ++ [Token.objectEnd]).foldlM next? (.value (.obj before key :: stack)) = _
    rw [List.foldlM_append, foldlM_tokens j, Option.bind_eq_bind, Option.bind_some]
    rfl
  | (key, j) :: next :: fields, before, stack, _ => by
    have hrest := foldlM_fieldTokens (next :: fields) (before ++ [(key, j)]) stack
      (List.cons_ne_nil _ _)
    show ((tokens j ++ Token.comma :: fieldTokens (next :: fields)) ++
      [Token.objectEnd]).foldlM next? (.value (.obj before key :: stack)) = _
    rw [List.append_assoc, List.foldlM_append, foldlM_tokens j, Option.bind_eq_bind,
      Option.bind_some]
    rw [List.append_assoc] at hrest
    -- The comma puts the field behind the others, and a key has to come.
    exact hrest

end

/-! ## Reading what is written -/

/-- A text that spells the tokens of a value is read as the value. -/
theorem read?_of_spells {j : Json} {text : List Char} (h : Spells j.tokens text) :
    read? (String.ofList text) = some j := by
  obtain ⟨space, hspace, hscan⟩ := scanAll_of_spells h
  have hafter := afterSpaces_append hspace (stops_nil isSpace)
  rw [List.append_nil] at hafter
  unfold read?
  rw [String.toList_ofList, hscan]
  dsimp only
  rw [hafter, foldlM_tokens]
  rfl

theorem read?_compact (j : Json) : read? j.compact = some j :=
  read?_of_spells (spells_compactText j)

theorem read?_pretty (j : Json) : read? j.pretty = some j :=
  read?_of_spells (spells_prettyText 0 j)

end SequenceXmi.Json
