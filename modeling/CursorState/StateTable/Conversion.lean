import CursorState.Event
import CursorState.Json.Printer
import CursorState.StateTable.Dump

/-! Dumps to JSON: an object with a member for each state, which lists the items of that state. -/
namespace CursorState

def StateItem.toJson (item : StateItem) : Json.Value :=
  .object [("key", .string item.key), ("value", .number (.ofNat item.value.toNat))]

namespace StateTable

def toJson (t : StateTable) : Json.Value :=
  .object (t.entries.map fun (id, items) => (id.display, .array (items.map StateItem.toJson)))

def print (t : StateTable) : String :=
  t.toJson.print

def convert (dump : String) (includeEmpty : Bool) : Except DumpError StateTable :=
  (ofDump dump).map fun t => if includeEmpty then t.pad else t

def conversionEvent (t : StateTable) (includeEmpty : Bool) : Event where
  level := .debug
  message := "converted state dump"
  fields := [("states", t.size.repr), ("include_empty", if includeEmpty then "true" else "false")]

end StateTable
end CursorState
