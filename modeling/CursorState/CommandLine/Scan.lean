import CursorState.CommandLine.Argument

/-! Scanning the arguments of a command from left to right. An argument counts as given only when
the next one is reached, so a fault in the next one may be found first. -/
namespace CursorState.CommandLine

/-- What was given so far, and the argument last reached with its value, if it has one yet. -/
structure Scan where
  given : List (Argument × ArgumentValue)
  pending : Option (Argument × Option String)
  deriving Repr

namespace Scan

def start : Scan := ⟨[], none⟩

def has (s : Scan) (a : Argument) : Bool :=
  s.given.any fun g => g.1 == a

/-- Give an argument. It may not be given twice; this is seen before its value is looked at, unless
the value is missing. -/
def give (s : Scan) (a : Argument) (value : Option String) : Except UsageError Scan :=
  if a = .help then .error .displayHelp
  else if a.kind ≠ .flag ∧ value.isNone then .error .missingValue
  else if s.has a then .error .conflict
  else (a.kind.read value).map fun v => ⟨s.given ++ [(a, v)], s.pending⟩

def settle (s : Scan) : Except UsageError Scan :=
  match s.pending with
  | none => .ok s
  | some (a, value) => (⟨s.given, none⟩ : Scan).give a value

def settleAndGive (s : Scan) (a : Argument) (value : Option String) : Except UsageError Scan := do
  (← s.settle).give a value

def settleAndAwait (s : Scan) (a : Argument) (value : Option String) : Except UsageError Scan := do
  return ⟨(← s.settle).given, some (a, value)⟩

/-- `--name` or `--name=value`, from after the dashes on. -/
def longOption (options : List Argument) (s : Scan) (cs : List Char) : Except UsageError Scan :=
  let (name, rest) := cs.span (· ≠ '=')
  match options.find? fun a => a.long? == some (String.ofList name), rest with
  | none, _ => .error .unknownArgument
  | some a, [] =>
    if a.kind = .flag then s.settleAndGive a none else s.settleAndAwait a none
  | some a, _ :: value =>
    if a.kind = .flag then .error .unexpectedValue
    else s.settleAndGive a (some (String.ofList value))

/-- `-abc`, from after the dash on: flags, and perhaps an option whose value is the rest. -/
def shortOptions (options : List Argument) (s : Scan) : List Char → Except UsageError Scan
  | [] => .ok s
  | c :: rest =>
    match options.find? fun a => a.short? == some c with
    | none => .error .unknownArgument
    | some a =>
      if a.kind = .flag then do shortOptions options (← s.settleAndGive a none) rest
      else
        match rest with
        | [] => s.settleAndAwait a none
        | '=' :: value => s.settleAndGive a (some (String.ofList value))
        | value => s.settleAndGive a (some (String.ofList value))

/-- An argument that is given by its place; `free` is the one that is not there yet. -/
def operand (free : Option Argument) (s : Scan) (value : String) : Except UsageError Scan :=
  match free with
  | some a => s.settleAndAwait a (some value)
  | none => .error .unknownArgument

def operands (free : Option Argument) (s : Scan) : List String → Except UsageError Scan
  | [] => .ok s
  | arg :: rest => do operands none (← s.operand free arg) rest

/-- All arguments of a command; `free` is the operand that is not there yet. -/
def arguments (options : List Argument) (free : Option Argument) (s : Scan) :
    List String → Except UsageError Scan
  | [] => .ok s
  | arg :: rest =>
    match arg.toList with
    | ['-', '-'] => s.operands free rest
    | '-' :: '-' :: cs => do arguments options free (← s.longOption options cs) rest
    | '-' :: c :: cs => do arguments options free (← s.shortOptions options (c :: cs)) rest
    | _ =>
      match s.pending with
      | some (a, none) => arguments options free ⟨s.given, some (a, some arg)⟩ rest
      | _ => do arguments options none (← s.operand free arg) rest

def word? (s : Scan) (a : Argument) : Option UInt32 :=
  match s.given.lookup a with
  | some (.word n) => some n
  | _ => none

def text? (s : Scan) (a : Argument) : Option String :=
  match s.given.lookup a with
  | some (.text t) => some t
  | _ => none

/-- The end of the command line. Conflicts come before what is missing. -/
def finish (c : CommandName) (s : Scan) : Except UsageError Scan := do
  let s ← s.settle
  if s.has .sourcePath ∧ s.has .sourceText then .error .conflict
  else if c.required.all s.has then .ok s
  else .error .missingArgument

end Scan
end CursorState.CommandLine
