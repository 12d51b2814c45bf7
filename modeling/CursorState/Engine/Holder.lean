import CursorState.Engine.Contract

/-! A holder of at most one session and at most one tree, who uses an engine step by step. -/
namespace CursorState

structure Holder (E : Engine) where
  session : Option E.Session
  tree : Option E.Tree

inductive HolderStep where
  /-- The new session is opened before the old one is released. -/
  | open
  | setStop (stop : Point)
  | setMode (mode : ResolutionMode)
  /-- The new tree takes the place of the held one. -/
  | parse (text : List UInt8)
  | find (stop : Point)
  | releaseTree
  | releaseSession
  deriving DecidableEq, Repr

inductive HolderAnswer where
  | done
  | failed (error : EngineError)
  | noSession
  /-- Whether the parse gave a tree. -/
  | parsed (tree : Bool)
  | found (found : Found)
  deriving DecidableEq, Repr

namespace Holder

variable {E : Engine}

def empty : Holder E := ⟨none, none⟩

def dropTree (h : Holder E) : StateM E.World (Holder E) := do
  if let some tree := h.tree then E.releaseTree tree
  return ⟨h.session, none⟩

def dropSession (h : Holder E) : StateM E.World (Holder E) := do
  if let some session := h.session then E.releaseSession session
  return ⟨none, h.tree⟩

/-- One step. Steps that need a session change nothing without one, and what is held stays held if
the step fails. -/
def step (h : Holder E) (s : HolderStep) : StateM E.World (HolderAnswer × Holder E) := do
  match s, h.session with
  | .open, _ =>
    match ← E.openSession with
    | .error e => return (.failed e, h)
    | .ok session =>
      let h ← h.dropSession
      return (.done, ⟨some session, h.tree⟩)
  | .releaseTree, _ => return (.done, ← h.dropTree)
  | .releaseSession, _ => return (.done, ← h.dropSession)
  | _, none => return (.noSession, h)
  | .setStop stop, some session =>
    let session ← E.setStop session stop
    return (.done, ⟨some session, h.tree⟩)
  | .setMode mode, some session =>
    let session ← E.setMode session mode
    return (.done, ⟨some session, h.tree⟩)
  | .parse text, some session =>
    let (session, result) ← E.parse session text
    match result with
    | .error e => return (.failed e, ⟨some session, h.tree⟩)
    | .ok tree =>
      let _ ← h.dropTree
      return (.parsed tree.isSome, ⟨some session, tree⟩)
  | .find stop, some session =>
    let found ← E.find session stop
    return (.found found, h)

end Holder
end CursorState
