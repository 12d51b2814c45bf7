import CursorState.Grammar.JsonLexer

/-! The states that the automaton of the JSON grammar goes through. A text is any number of values,
one after another, and it may stop anywhere. -/
namespace CursorState.Grammar

inductive Awaits where
  /-- A value or key, or the end of a container that is still empty. -/
  | firstOrEnd
  | key
  | colon
  | value
  | commaOrEnd
  deriving DecidableEq, Repr

/-- An open array with the number of its values, or an open object with the number of its pairs. -/
structure Frame where
  isObject : Bool
  awaits : Awaits
  count : Nat
  deriving DecidableEq, Repr

/-- The open containers, the innermost one first, and the number of parts of the open string. -/
structure Config where
  frames : List Frame
  openString : Option Nat
  deriving DecidableEq, Repr

/-- Start a value; the container that it lies in then waits for what follows. -/
def beginValue : List Frame → Option (List Frame)
  | [] => some []
  | frame :: frames =>
    match frame.isObject, frame.awaits with
    | false, .firstOrEnd | false, .value => some (⟨false, .commaOrEnd, frame.count + 1⟩ :: frames)
    | true, .value => some (⟨true, .commaOrEnd, frame.count⟩ :: frames)
    | _, _ => none

/-- Start a string: a key where an object waits for one, otherwise a value. -/
def beginString : List Frame → Option (List Frame)
  | [] => some []
  | frame :: frames =>
    match frame.isObject, frame.awaits with
    | true, .firstOrEnd | true, .key => some (⟨true, .colon, frame.count + 1⟩ :: frames)
    | _, _ => beginValue (frame :: frames)

def Frame.mayEnd (frame : Frame) : Bool :=
  frame.awaits == .firstOrEnd || frame.awaits == .commaOrEnd

def objectState : Nat → Nat
  | 0 => 7
  | 1 => 11
  | _ => 12

def arrayState : Nat → Nat
  | 0 => 9
  | 1 => 14
  | _ => 15

def shift (frames : List Frame) : Lexeme → Option (Nat × Config)
  | .openBrace => do return (16, ⟨⟨true, .firstOrEnd, 0⟩ :: (← beginValue frames), none⟩)
  | .openBracket => do return (4, ⟨⟨false, .firstOrEnd, 0⟩ :: (← beginValue frames), none⟩)
  | .scalar => do return (8, ⟨← beginValue frames, none⟩)
  | .quote => do return (17, ⟨← beginString frames, some 0⟩)
  | .closeBrace =>
    match frames with
    | frame :: frames =>
      if frame.isObject ∧ frame.mayEnd then some (objectState frame.count, ⟨frames, none⟩) else none
    | [] => none
  | .closeBracket =>
    match frames with
    | frame :: frames =>
      if ¬ frame.isObject ∧ frame.mayEnd then
        some (arrayState frame.count, ⟨frames, none⟩)
      else none
    | [] => none
  | .colon =>
    match frames with
    | frame :: frames =>
      if frame.isObject ∧ frame.awaits = .colon then
        some (13, ⟨⟨true, .value, frame.count⟩ :: frames, none⟩)
      else none
    | [] => none
  | .comma =>
    match frames with
    | frame :: frames =>
      if frame.awaits = .commaOrEnd then
        if frame.isObject then some (23, ⟨⟨true, .key, frame.count⟩ :: frames, none⟩)
        else some (10, ⟨⟨false, .value, frame.count⟩ :: frames, none⟩)
      else none
    | [] => none

namespace Config

def start : Config := ⟨[], none⟩

/-- Drop what stands before the next token: blanks and comments, but inside a string only a line
break and the blanks after it. -/
def clear (c : Config) (cs : List Char) : List Char :=
  match c.openString with
  | none => skipExtras cs
  | some _ => if cs.head? = some '\n' then cs.dropWhile isBlankByte else cs

/-- Shift the next token: the state, the configuration after it, and the text after it. -/
def step (c : Config) (cs : List Char) : Option (Nat × Config × List Char) :=
  match c.openString with
  | none =>
    match lexeme? cs with
    | none => none
    | some (l, rest) => (shift c.frames l).map fun (state, c) => (state, c, rest)
  | some parts =>
    match cs with
    | '"' :: rest => some (if parts = 0 then 5 else 6, ⟨c.frames, none⟩, rest)
    | cs =>
      (afterPart? cs).map fun rest =>
        (if parts = 0 then 18 else 19, ⟨c.frames, some (parts + 1)⟩, rest)

theorem clear_length_le (c : Config) (cs : List Char) : (c.clear cs).length ≤ cs.length := by
  unfold clear
  split
  · exact skipExtras_length_le cs
  · split
    · exact (List.dropWhile_suffix _).length_le
    · exact Nat.le_refl _

theorem step_length {c d : Config} {cs rest : List Char} {state : Nat}
    (h : c.step cs = some (state, d, rest)) : rest.length < cs.length := by
  unfold step at h
  split at h
  · split at h
    · cases h
    · next hl =>
      obtain ⟨_, _, he⟩ := Option.map_eq_some_iff.1 h
      cases he
      exact lexeme?_length hl
  · split at h
    · cases h
      exact Nat.lt_succ_self _
    · obtain ⟨_, h', he⟩ := Option.map_eq_some_iff.1 h
      cases he
      exact afterPart?_length h'

/-- The states shifted to, and whether a rest was left where no token starts. -/
def run (c : Config) (cs : List Char) : List Nat × Bool :=
  match _h : c.step (c.clear cs) with
  | some (state, d, rest) =>
    let (states, stuck) := d.run rest
    (state :: states, stuck)
  | none => ([], !(c.clear cs).isEmpty)
  termination_by cs.length
  decreasing_by exact Nat.lt_of_lt_of_le (step_length _h) (clear_length_le c cs)

end Config

/-- A byte order mark at the very start does not count. -/
def dropByteOrderMark : List Char → List Char
  | '\xef' :: '\xbb' :: '\xbf' :: cs => cs
  | cs => cs

/-- What the parser of the JSON grammar logs: the shifts, and the rest as one skipped token if no
token starts in it. -/
def jsonLog (text : List UInt8) : List String :=
  let (states, stuck) := Config.start.run (dropByteOrderMark (text.map fun b => Char.ofNat b.toNat))
  states.map (fun state => s!"shift state:{state}") ++ if stuck then ["skip_token"] else []

end CursorState.Grammar
