/-! # Sequence diagrams

A diagram has lifelines, messages that pass between them, and fragments that hold messages under a
condition. Messages name their ends by the alias of a lifeline; an alias may be declared more than
once, and then its last declaration counts. -/

namespace SequenceXmi

/-! ## Parts of a diagram -/

/-- What a fragment does with its messages. -/
inductive Operator where
  /-- The messages are sent if the guard holds. -/
  | alt
  /-- The messages are sent again while the guard holds. -/
  | loop
  deriving DecidableEq, Repr

/-- The keyword of an operator. -/
def Operator.keyword : Operator → String
  | .alt => "alt"
  | .loop => "loop"

/-- Why a word gives no operator. -/
inductive OperatorFault where
  /-- It is the keyword of none. -/
  | unknown (keyword : String)
  deriving DecidableEq, Repr

/-- The fault in words. -/
def OperatorFault.text : OperatorFault → String
  | .unknown keyword => "unsupported interaction operator `" ++ keyword ++ "`"

/-- The operator that a keyword stands for. -/
def Operator.ofKeyword : String → Except OperatorFault Operator
  | "alt" => .ok .alt
  | "loop" => .ok .loop
  | keyword => .error (.unknown keyword)

/-- A word gives the operator that it is the keyword of; any other word is refused by name. -/
theorem Operator.ofKeyword_cases (keyword : String) :
    (∃ o : Operator, keyword = o.keyword ∧ ofKeyword keyword = .ok o) ∨
      (∀ o : Operator, keyword ≠ o.keyword) ∧ ofKeyword keyword = .error (.unknown keyword) := by
  unfold ofKeyword
  split
  · exact .inl ⟨.alt, rfl, rfl⟩
  · exact .inl ⟨.loop, rfl, rfl⟩
  · next halt hloop =>
    refine .inr ⟨?_, rfl⟩
    intro o
    cases o with
    | alt => exact halt
    | loop => exact hloop

/-- The operator that a keyword stands for, if there is one. -/
def Operator.ofKeyword? (keyword : String) : Option Operator := (ofKeyword keyword).toOption

/-- How a message is sent. -/
inductive MessageKind where
  /-- A call between two lifelines. -/
  | synchronous
  /-- A remark at one lifeline. -/
  | note
  deriving DecidableEq, Repr

/-- The name of a message kind. -/
def MessageKind.name : MessageKind → String
  | .synchronous => "synchronous"
  | .note => "note"

/-- A participant of the diagram. -/
structure Lifeline where
  /-- The name by which messages refer to the lifeline. -/
  aliasName : String
  /-- The name that is shown. -/
  displayName : String
  deriving DecidableEq, Repr

/-- A message from one lifeline to another. -/
structure Message where
  /-- Alias of the lifeline that sends. -/
  sender : String
  /-- Alias of the lifeline that receives. -/
  receiver : String
  /-- What the message says. -/
  text : String
  /-- How it is sent. -/
  kind : MessageKind
  deriving DecidableEq, Repr

namespace Message

/-- A call. -/
def synchronous (sender receiver text : String) : Message := ⟨sender, receiver, text, .synchronous⟩

/-- The words in front of the text of every note. -/
def notePreface : String := "Note: "

/-- A note is a message from its target to itself; its text is marked as a note's. -/
def note (target text : String) : Message := ⟨target, target, notePreface ++ text, .note⟩

/-- Whether the message is a note. -/
def isNote (m : Message) : Bool := m.kind == .note

end Message

/-- A group of messages under a guard. -/
structure Fragment where
  operator : Operator
  /-- The condition, possibly empty. -/
  guard : String
  messages : List Message
  deriving DecidableEq, Repr

namespace Fragment

/-- A fragment without messages. -/
def empty (operator : Operator) (guard : String) : Fragment := ⟨operator, guard, []⟩

/-- The fragment with one more message at its end. -/
def push (f : Fragment) (m : Message) : Fragment := { f with messages := f.messages ++ [m] }

end Fragment

/-! ## Diagrams -/

/-- A sequence diagram. -/
structure Diagram where
  lifelines : List Lifeline
  /-- The messages outside every fragment. -/
  topLevel : List Message
  fragments : List Fragment
  deriving DecidableEq, Repr

namespace Diagram

/-- The lifeline that an alias stands for: its last declaration. -/
def lifeline? (d : Diagram) (aliasName : String) : Option Lifeline :=
  d.lifelines.reverse.find? (·.aliasName == aliasName)

/-- The number of messages, inside and outside fragments. -/
def messageCount (d : Diagram) : Nat :=
  d.topLevel.length + d.fragments.foldr (fun f n => f.messages.length + n) 0

/-- All messages: those outside every fragment, then those of one fragment after another. -/
def allMessages (d : Diagram) : List Message := d.topLevel ++ d.fragments.flatMap (·.messages)

theorem messageCount_eq_length (d : Diagram) : d.messageCount = d.allMessages.length := by
  have hfragments : d.fragments.foldr (fun f n => f.messages.length + n) 0 =
      (d.fragments.flatMap (·.messages)).length := by
    induction d.fragments with
    | nil => rfl
    | cons f fs ih => rw [List.foldr_cons, ih, List.flatMap_cons, List.length_append]
  unfold messageCount allMessages
  rw [hfragments, List.length_append]

/-- A diagram without any part. -/
def isEmpty (d : Diagram) : Bool := d.lifelines.isEmpty && d.topLevel.isEmpty && d.fragments.isEmpty

end Diagram

end SequenceXmi
