import SequenceXmi.Diagram
import SequenceXmi.Identifier
import SequenceXmi.Xml.Text

/-! # Diagrams as XMI documents

A diagram becomes a UML model with one interaction. In the interaction stand, in this order,

- one lifeline for each participant;
- for each message at top level the message and the two events of its sending and receiving;
- for each fragment a combined fragment, whose operand holds the guard and the events of the
  fragment's messages, followed by these messages themselves.

Every element that can be referred to draws an identifier. A message knows its two events, an event
knows its message and the lifeline it covers. Export fails at the first message that names an
undeclared participant; identifiers drawn until then stay drawn. -/

namespace SequenceXmi.Xmi

open Xml (Element Document)

/-! ## Names of the format -/

/-- The version of XMI that is written. -/
def version : String := "2.1"

/-- The namespace of XMI itself. -/
def xmiNamespace : String := "http://schema.omg.org/spec/XMI/2.1"

/-- The namespace of UML elements. -/
def umlNamespace : String := "http://schema.omg.org/spec/UML/2.1"

/-- The attribute that holds an element's identifier. -/
def idKey : String := "xmi:id"

/-- The attribute that holds an element's type. -/
def typeKey : String := "xmi:type"

/-- The attribute that holds an element's name. -/
def nameKey : String := "name"

/-- The type of the events at both ends of a message. -/
def occurrenceType : String := "uml:MessageOccurrenceSpecification"

/-- The type of a fragment. -/
def combinedType : String := "uml:CombinedFragment"

/-- The sort of message that a kind is written as. -/
def messageSort : MessageKind → String
  | .synchronous => "synchCall"
  | .note => "asynchCall"

/-- The model's name unless another is set. -/
def defaultModelName : String := "ClusterReflashModel"

/-! ## Failure and state of an export -/

/-- A message names a participant that is not declared. -/
structure Unresolved where
  /-- The name that no lifeline has. -/
  aliasName : String
  /-- The text of the message. -/
  message : String
  deriving DecidableEq, Repr

/-- What went wrong, in words. -/
def Unresolved.text (u : Unresolved) : String :=
  "message `" ++ u.message ++ "` references undeclared participant `" ++ u.aliasName ++ "`"

/-- A computation that draws identifiers and may fail; what was drawn stays drawn. -/
abbrev Export (α : Type) := ExceptT Unresolved (StateM IdSupply) α

/-- Draws one identifier. -/
def drawId : Export String := modifyGet IdSupply.draw

/-- A draw never fails. -/
theorem drawId_run (s : IdSupply) : drawId.run.run s = (.ok (s.name s.drawn), s.draw.2) := rfl

/-! ## Lifelines -/

/-- The lifelines that can be referred to: alias and identifier of each, as declared. -/
abbrev Covers := List (String × String)

/-- The identifier of the lifeline with an alias, if there is one; the last declaration counts. -/
def Covers.find? (covers : Covers) (aliasName : String) : Option String :=
  (covers.reverse.find? (·.1 == aliasName)).map (·.2)

/-- The identifier of the lifeline that a message names. -/
def resolve (covers : Covers) (m : Message) (aliasName : String) : Export String :=
  match covers.find? aliasName with
  | some id => pure id
  | none => throw ⟨aliasName, m.text⟩

/-- The element of a lifeline, and how to refer to it. -/
def lifeline (l : Lifeline) : Export (Element × (String × String)) := do
  let id ← drawId
  let represents ← drawId
  let element := Element.ofName "uml:lifeline"
    |>.withAttribute idKey id
    |>.withAttribute nameKey l.displayName
    |>.withAttribute "represents" represents
  return (element, (l.aliasName, id))

/-! ## Messages -/

/-- The elements of one message. -/
structure MessageParts where
  message : Element
  send : Element
  receive : Element

/-- The event at one end of a message. -/
def occurrence (id covered message : String) : Element :=
  Element.ofName "uml:fragment"
    |>.withAttribute typeKey occurrenceType
    |>.withAttribute idKey id
    |>.withAttribute "covered" covered
    |>.withAttribute "message" message

/-- The elements of a message. Both its ends are looked up before any identifier is drawn. -/
def messageParts (covers : Covers) (m : Message) : Export MessageParts := do
  let sender ← resolve covers m m.sender
  let receiver ← resolve covers m m.receiver
  let id ← drawId
  let sendId ← drawId
  let receiveId ← drawId
  let message := Element.ofName "uml:message"
    |>.withAttribute idKey id
    |>.withAttribute nameKey m.text
    |>.withAttribute "messageSort" (messageSort m.kind)
    |>.withAttribute "sendEvent" sendId
    |>.withAttribute "receiveEvent" receiveId
  return ⟨message, occurrence sendId sender id, occurrence receiveId receiver id⟩

/-! ## Fragments -/

/-- The guard of a fragment. -/
def guardElement (id condition : String) : Element :=
  Element.ofName "uml:guard"
    |>.withAttribute idKey id
    |>.withChild (Element.ofName "uml:specification" |>.withAttribute "value" condition)

/-- The combined fragment with the events of its messages, followed by the messages. -/
def fragment (covers : Covers) (f : Fragment) : Export (List Element) := do
  let id ← drawId
  let operandId ← drawId
  let guardId ← drawId
  let parts ← f.messages.mapM (messageParts covers)
  let operand := Element.ofName "uml:operand"
    |>.withAttribute idKey operandId
    |>.withChild (guardElement guardId f.guard)
    |>.withChildren (parts.flatMap fun p => [p.send, p.receive])
  let combined := Element.ofName "uml:fragment"
    |>.withAttribute typeKey combinedType
    |>.withAttribute idKey id
    |>.withAttribute "interactionOperator" f.operator.keyword
    |>.withChild operand
  return combined :: parts.map (·.message)

/-! ## Documents -/

/-- The document of a diagram; `name` names the interaction. -/
def document (modelName : String) (d : Diagram) (name : String) : Export Document := do
  let modelId ← drawId
  let interactionId ← drawId
  let lifelines ← d.lifelines.mapM lifeline
  let covers := lifelines.map (·.2)
  let messages ← d.topLevel.mapM (messageParts covers)
  let fragments ← d.fragments.mapM (fragment covers)
  let interaction := Element.ofName "uml:packagedElement"
    |>.withAttribute typeKey "uml:Interaction"
    |>.withAttribute idKey interactionId
    |>.withAttribute nameKey name
    |>.withChildren (lifelines.map (·.1))
    |>.withChildren (messages.flatMap fun p => [p.message, p.send, p.receive])
    |>.withChildren fragments.flatten
  let model := Element.ofName "uml:Model"
    |>.withAttribute "xmi:version" version
    |>.withAttribute "xmlns:xmi" xmiNamespace
    |>.withAttribute "xmlns:uml" umlNamespace
    |>.withAttribute idKey modelId
    |>.withAttribute nameKey modelName
    |>.withChild interaction
  return ⟨model⟩

/-- An exporter keeps its supply of identifiers from one document to the next. -/
structure Exporter where
  ids : IdSupply
  modelName : String

namespace Exporter

/-- An exporter that draws from the given supply and uses the default model name. -/
def ofIds (ids : IdSupply) : Exporter := ⟨ids, defaultModelName⟩

/-- The exporter with another model name. -/
def withModelName (x : Exporter) (modelName : String) : Exporter := { x with modelName }

/-- Exports a diagram. The exporter goes on after the identifiers drawn, also when export fails. -/
def exportDiagram (x : Exporter) (d : Diagram) (name : String) :
    Except Unresolved Document × Exporter :=
  let (result, ids) := (document x.modelName d name).run.run x.ids
  (result, { x with ids })

/-- Draws one identifier outside any document. -/
def nextId (x : Exporter) : String × Exporter :=
  let (id, ids) := x.ids.draw
  (id, { x with ids })

end Exporter

end SequenceXmi.Xmi
