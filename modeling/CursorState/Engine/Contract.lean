import CursorState.Engine.Recovery
import CursorState.Position.Point

/-! What a state query asks of a parsing engine. -/
namespace CursorState

/-- How the engine treats states that it has not met before: it only looks known states up, or it
takes new ones in. -/
inductive ResolutionMode where
  | resolve
  | discover
  deriving DecidableEq, Repr, Inhabited

inductive EngineError where
  /-- The grammar cannot be loaded. -/
  | language (reason : String)
  | session (reason : String)
  | parse (reason : String)
  deriving DecidableEq, Repr

def EngineError.message : EngineError → String
  | language reason => "incompatible grammar: " ++ reason
  | session reason => "failed to acquire parser session: " ++ reason
  | parse reason => "parse failed: " ++ reason

/-- A parsing engine for one grammar. Its operations may change the world around it. A session
serves one query; sessions and trees have to be released. -/
structure Engine where
  World : Type
  Session : Type
  Tree : Type
  openSession : StateM World (Except EngineError Session)
  setStop : Session → Point → StateM World Session
  setMode : Session → ResolutionMode → StateM World Session
  /-- Parse a text from its start. There may be neither an error nor a tree. -/
  parse : Session → List UInt8 → StateM World (Session × Except EngineError (Option Tree))
  /-- The state that tells best what could come next after the last parse. -/
  find : Session → Point → StateM World Found
  releaseTree : Tree → StateM World Unit
  releaseSession : Session → StateM World Unit

end CursorState
