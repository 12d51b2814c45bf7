import Std.Data.HashMap
import Std.Data.HashSet
import CursorState.StateId

/-! State tables: the grammar items that each state of an automaton admits. -/
namespace CursorState

structure StateItem where
  key : String
  value : UInt64
  deriving DecidableEq, Repr

/-- States with their items, in the order in which the states came up. -/
structure StateTable where
  entries : List (StateId × List StateItem)
  deriving Repr

/-- Add items to those of a state; a state that is not there yet goes to the end. -/
def appendItems (id : StateId) (items : List StateItem) :
    List (StateId × List StateItem) → List (StateId × List StateItem)
  | [] => [(id, items)]
  | entry :: rest =>
    if entry.1 = id then (id, entry.2 ++ items) :: rest
    else entry :: appendItems id items rest

structure IndexedEntries where
  index : Std.HashSet StateId
  entries : Array (StateId × List StateItem)

/-- See to it that a state has an entry. A new one goes to the end, without items. -/
def IndexedEntries.enter (e : IndexedEntries) (id : StateId) : IndexedEntries :=
  if e.index.contains id then e else ⟨e.index.insert id, e.entries.push (id, [])⟩

namespace StateTable

def empty : StateTable := ⟨[]⟩

instance : Inhabited StateTable := ⟨empty⟩

def ids (t : StateTable) : List StateId :=
  t.entries.map Prod.fst

def size (t : StateTable) : Nat :=
  t.entries.length

def isEmpty (t : StateTable) : Bool :=
  t.entries.isEmpty

def items? (t : StateTable) (id : StateId) : Option (List StateItem) :=
  t.entries.lookup id

def append (t : StateTable) (id : StateId) (items : List StateItem) : StateTable :=
  ⟨appendItems id items t.entries⟩

def merge (t u : StateTable) : StateTable :=
  u.entries.foldl (fun t entry => t.append entry.1 entry.2) t

def maxId? (t : StateTable) : Option Nat :=
  (t.ids.map StateId.toNat).max?

def indexed (t : StateTable) : IndexedEntries :=
  ⟨.ofList t.ids, t.entries.toArray⟩

def pad (t : StateTable) : StateTable :=
  match t.maxId? with
  | none => t
  | some max =>
    let ids := (List.range (max + 1)).map StateId.ofNat
    ⟨(ids.foldl IndexedEntries.enter t.indexed).entries.toList⟩

/-- Equality up to the order of the states: as many of them, and the same items for each. -/
def same (t u : StateTable) : Bool :=
  let index := Std.HashMap.ofList u.entries
  t.size == u.size && t.entries.all fun entry => index[entry.1]? == some entry.2

end StateTable
end CursorState
