import SequenceXmi.ModelDump
import SequenceXmi.Proofs.Json.RoundTrip

/-! # Diagrams from JSON

A record is read from an object by the names of its fields, whatever their order; operators and
message kinds are read by name. Nothing of a diagram is lost on the way to JSON and back.

Main result: `Diagram.ofJson?_toJson`. -/

namespace SequenceXmi

/-! ## Fields -/

namespace Json

/-- The value of a field. -/
def field? (key : String) : Json → Option Json
  | .obj fields => fields.lookup key
  | .str _ | .arr _ => none

/-- A string. -/
def text? : Json → Option String
  | .str text => some text
  | .arr _ | .obj _ => none

/-- The items of an array, each read in the same way. -/
def list? {α : Type} (item? : Json → Option α) : Json → Option (List α)
  | .arr items => items.mapM item?
  | .str _ | .obj _ => none

/-- The text in a field. -/
def textField? (key : String) (j : Json) : Option String := (j.field? key).bind text?

/-- The list in a field. -/
def listField? {α : Type} (key : String) (item? : Json → Option α) (j : Json) : Option (List α) :=
  (j.field? key).bind (list? item?)

/-- Items that are read back one by one are read back together. -/
theorem list?_map {α : Type} {item? : Json → Option α} {write : α → Json}
    (h : ∀ x, item? (write x) = some x) (xs : List α) :
    list? item? (.arr (xs.map write)) = some xs := by
  show (xs.map write).mapM item? = some xs
  induction xs with
  | nil => rfl
  | cons x xs ih =>
    rw [List.map_cons, List.mapM_cons, h, ih]
    rfl

end Json

/-! ## Records -/

/-- The message kind with a name. -/
def MessageKind.ofName? : String → Option MessageKind
  | "synchronous" => some .synchronous
  | "note" => some .note
  | _ => none

/-- A lifeline from its object. -/
def Lifeline.ofJson? (j : Json) : Option Lifeline := do
  let aliasName ← j.textField? "alias"
  let displayName ← j.textField? "display_name"
  return ⟨aliasName, displayName⟩

/-- A message from its object. -/
def Message.ofJson? (j : Json) : Option Message := do
  let sender ← j.textField? "sender"
  let receiver ← j.textField? "receiver"
  let text ← j.textField? "text"
  let kind ← (j.textField? "kind").bind MessageKind.ofName?
  return ⟨sender, receiver, text, kind⟩

/-- A fragment from its object. -/
def Fragment.ofJson? (j : Json) : Option Fragment := do
  let operator ← (j.textField? "operator").bind Operator.ofKeyword?
  let guard ← j.textField? "guard_condition"
  let messages ← j.listField? "messages" Message.ofJson?
  return ⟨operator, guard, messages⟩

/-- A diagram from its object. -/
def Diagram.ofJson? (j : Json) : Option Diagram := do
  let lifelines ← j.listField? "lifelines" Lifeline.ofJson?
  let topLevel ← j.listField? "top_level_messages" Message.ofJson?
  let fragments ← j.listField? "fragments" Fragment.ofJson?
  return ⟨lifelines, topLevel, fragments⟩

/-! ## Nothing is lost -/

theorem Lifeline.ofJson?_toJson (l : Lifeline) : ofJson? l.toJson = some l := rfl

theorem Message.ofJson?_toJson (m : Message) : ofJson? m.toJson = some m := by
  obtain ⟨sender, receiver, text, kind⟩ := m
  cases kind <;> rfl

theorem Fragment.ofJson?_toJson (f : Fragment) : ofJson? f.toJson = some f := by
  obtain ⟨operator, guard, messages⟩ := f
  have hmessages : (Fragment.mk operator guard messages).toJson.listField? "messages"
      Message.ofJson? = some messages :=
    Json.list?_map Message.ofJson?_toJson messages
  unfold ofJson?
  rw [hmessages]
  cases operator <;> rfl

theorem Diagram.ofJson?_toJson (d : Diagram) : ofJson? d.toJson = some d := by
  have hlifelines : d.toJson.listField? "lifelines" Lifeline.ofJson? = some d.lifelines :=
    Json.list?_map Lifeline.ofJson?_toJson d.lifelines
  have htopLevel : d.toJson.listField? "top_level_messages" Message.ofJson? = some d.topLevel :=
    Json.list?_map Message.ofJson?_toJson d.topLevel
  have hfragments : d.toJson.listField? "fragments" Fragment.ofJson? = some d.fragments :=
    Json.list?_map Fragment.ofJson?_toJson d.fragments
  unfold ofJson?
  rw [hlifelines, htopLevel, hfragments]
  rfl

end SequenceXmi
