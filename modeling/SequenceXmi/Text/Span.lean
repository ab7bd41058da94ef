/-! # Spans of source text

Places in a source text are ranges of UTF-8 bytes. A `Span` always has its start no later than its
stop. `Span.slice` reads the text that a span covers; it has no answer for a span that leaves the
source or cuts a character in two. -/

namespace SequenceXmi.Text

/-! ## Bytes of a text -/

/-- The number of bytes that a text takes in UTF-8. -/
def byteLength (text : List Char) : Nat := text.foldr (fun c n => c.utf8Size + n) 0

@[simp] theorem byteLength_nil : byteLength [] = 0 := rfl

@[simp] theorem byteLength_cons (c : Char) (text : List Char) :
    byteLength (c :: text) = c.utf8Size + byteLength text := rfl

@[simp] theorem byteLength_append (a b : List Char) :
    byteLength (a ++ b) = byteLength a + byteLength b := by
  induction a with
  | nil => simp
  | cons c a ih => simp [ih, Nat.add_assoc]

/-- The text after its first `n` bytes, if a character starts or the text ends there. -/
def dropBytes : Nat → List Char → Option (List Char)
  | 0, text => some text
  | _ + 1, [] => none
  | n + 1, c :: text => if c.utf8Size ≤ n + 1 then dropBytes (n + 1 - c.utf8Size) text else none

/-- The first `n` bytes of the text, if a character ends there. -/
def takeBytes : Nat → List Char → Option (List Char)
  | 0, _ => some []
  | _ + 1, [] => none
  | n + 1, c :: text =>
    if c.utf8Size ≤ n + 1 then (takeBytes (n + 1 - c.utf8Size) text).map (c :: ·) else none

/-- Dropping the bytes of a text in front leaves what follows it. -/
@[simp] theorem dropBytes_byteLength_append (a b : List Char) :
    dropBytes (byteLength a) (a ++ b) = some b := by
  induction a with
  | nil => cases b <;> rfl
  | cons c a ih =>
    have hc := c.utf8Size_pos
    obtain ⟨n, hn⟩ : ∃ n, c.utf8Size + byteLength a = n + 1 := ⟨_, (Nat.succ_pred (by omega)).symm⟩
    rw [byteLength_cons, hn, List.cons_append, dropBytes, if_pos (by omega), ← ih]
    congr 1; omega

/-- Taking the bytes of a text in front gives that text. -/
@[simp] theorem takeBytes_byteLength_append (a b : List Char) :
    takeBytes (byteLength a) (a ++ b) = some a := by
  induction a with
  | nil => cases b <;> rfl
  | cons c a ih =>
    have hc := c.utf8Size_pos
    obtain ⟨n, hn⟩ : ∃ n, c.utf8Size + byteLength a = n + 1 := ⟨_, (Nat.succ_pred (by omega)).symm⟩
    have hrest : n + 1 - c.utf8Size = byteLength a := by omega
    rw [byteLength_cons, hn, List.cons_append, takeBytes, if_pos (by omega), hrest, ih]
    rfl

/-! ## Spans -/

/-- A range of bytes from `start` up to, not including, `stop`. -/
structure Span where
  /-- Offset of the first byte. -/
  start : Nat
  /-- Offset after the last byte. -/
  stop : Nat
  /-- A span never ends before it starts. -/
  start_le_stop : start ≤ stop
  deriving DecidableEq, Repr

namespace Span

/-- The span between two offsets; it is empty at `start` if `stop` lies before it. -/
def ofOffsets (start stop : Nat) : Span := ⟨start, max start stop, Nat.le_max_left ..⟩

/-- The span of `length` bytes from `start` on. -/
def ofLength (start length : Nat) : Span := ⟨start, start + length, Nat.le_add_right ..⟩

instance : Inhabited Span := ⟨ofLength 0 0⟩

/-- The number of bytes in the span. -/
def length (s : Span) : Nat := s.stop - s.start

/-- A span of no bytes. -/
def isEmpty (s : Span) : Bool := s.start == s.stop

/-- The span as text: its two offsets, with two dots between them. -/
def text (s : Span) : String := s.start.repr ++ ".." ++ s.stop.repr

/-- The text that the span covers, if both its ends lie on character boundaries of the source. -/
def slice (s : Span) (source : String) : Option String :=
  (dropBytes s.start source.toList).bind fun rest => (takeBytes s.length rest).map String.ofList

@[simp] theorem ofLength_start (start length : Nat) : (ofLength start length).start = start := rfl

@[simp] theorem length_ofLength (start length : Nat) : (ofLength start length).length = length :=
  Nat.add_sub_cancel_left ..

/-- The span of a part of a text covers that part. -/
theorem slice_ofLength (a b c : List Char) :
    (ofLength (byteLength a) (byteLength b)).slice (String.ofList (a ++ b ++ c)) =
      some (String.ofList b) := by
  simp [slice, List.append_assoc]

/-- A span is fixed by its two offsets. -/
theorem ofOffsets_start_stop (s : Span) : ofOffsets s.start s.stop = s := by
  have := s.start_le_stop
  cases s; simp [ofOffsets]; omega

end Span

end SequenceXmi.Text
