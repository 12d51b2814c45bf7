import CursorState.Engine.Contract
import CursorState.Event
import CursorState.Position.Offset

/-! State queries: parse the text before a cursor and ask for the closest state. -/
namespace CursorState

structure Resolution where
  found : Found
  /-- The length of the text that was parsed, in bytes. -/
  effectiveLength : Nat
  deriving DecidableEq, Repr

/-- Why a query has no answer. After either, nothing is held any more. -/
inductive QueryError where
  /-- The call is malformed; nothing was acquired. -/
  | usage (text : String)
  | engine (error : EngineError)
  deriving DecidableEq, Repr

def QueryError.message : QueryError → String
  | usage text => text
  | engine error => error.message

/-- The part of a text that a query at `stop` parses: what lies strictly before the cursor. -/
def effectiveLength (text : List UInt8) (stop : Point) (w : TabWidth) : Nat :=
  min (byteOffset text stop.target w) text.length

/-- Resolve the state at the cursor `stop`, which is counted from 1. The search gets the stop point
as it is. The tree and the session are released on every way out. -/
def resolve (E : Engine) (w : TabWidth) (text : List UInt8) (stop : Point) :
    StateM E.World (Except QueryError Resolution) := do
  match ← E.openSession with
  | .error e => return .error (.engine e)
  | .ok session =>
    let session ← E.setStop session stop
    let session ← E.setMode session .resolve
    let length := effectiveLength text stop w
    let (session, parsed) ← E.parse session (text.take length)
    match parsed with
    | .error e =>
      E.releaseSession session
      return .error (.engine e)
    | .ok tree =>
      let found ← E.find session stop
      if let some tree := tree then E.releaseTree tree
      E.releaseSession session
      return .ok ⟨found, length⟩

def Resolution.event (r : Resolution) (text : List UInt8) (stop : Point) : Event where
  level := .debug
  message := "resolved parse state"
  fields :=
    [("stop", stop.display), ("target", stop.target.display),
      ("effective_len", r.effectiveLength.repr), ("text_len", text.length.repr),
      ("state", r.found.state.display), ("log", r.found.log.display)]

def Resolution.render (r : Resolution) (verbose : Bool) : String :=
  let state := r.found.state.display ++ "\n"
  if verbose then
    state ++ s!"parsed: {r.effectiveLength} bytes\n" ++ s!"recovery: {r.found.log.display}\n"
  else state

end CursorState
