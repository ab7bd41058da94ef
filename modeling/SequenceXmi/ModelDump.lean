import SequenceXmi.Diagram
import SequenceXmi.Json

/-! # Diagrams as JSON

The model that was read can be shown as JSON: each record is an object with its fields in a fixed
order, operators and message kinds are written by name. -/

namespace SequenceXmi

/-- A lifeline as an object. -/
def Lifeline.toJson (l : Lifeline) : Json :=
  .obj [("alias", .str l.aliasName), ("display_name", .str l.displayName)]

/-- A message as an object. -/
def Message.toJson (m : Message) : Json :=
  .obj [("sender", .str m.sender), ("receiver", .str m.receiver), ("text", .str m.text),
    ("kind", .str m.kind.name)]

/-- A fragment as an object. -/
def Fragment.toJson (f : Fragment) : Json :=
  .obj [("operator", .str f.operator.keyword), ("guard_condition", .str f.guard),
    ("messages", .arr (f.messages.map Message.toJson))]

/-- A diagram as an object. -/
def Diagram.toJson (d : Diagram) : Json :=
  .obj [("lifelines", .arr (d.lifelines.map Lifeline.toJson)),
    ("top_level_messages", .arr (d.topLevel.map Message.toJson)),
    ("fragments", .arr (d.fragments.map Fragment.toJson))]

end SequenceXmi
