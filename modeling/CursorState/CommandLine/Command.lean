import CursorState.CommandLine.Scan

/-! Commands as they are read from a command line. -/
namespace CursorState.CommandLine

structure SourceArguments where
  path : Option String
  text : Option String
  row : UInt32
  column : UInt32
  tabWidth : UInt32
  deriving DecidableEq, Repr

inductive Command where
  | state (source : SourceArguments) (language : Option String) (verbose : Bool)
  | offset (source : SourceArguments)
  | table (input output : String) (includeEmpty : Bool)
  | langs
  deriving DecidableEq, Repr

def Scan.source (s : Scan) : SourceArguments where
  path := s.text? .sourcePath
  text := s.text? .sourceText
  row := (s.word? .row).getD 0
  column := (s.word? .column).getD 0
  tabWidth := (s.word? .tabWidth).getD 4

def Scan.command (s : Scan) : CommandName → Command
  | .state => .state s.source (s.text? .language) (s.has .verbose)
  | .offset => .offset s.source
  | .table =>
    .table ((s.text? .input).getD "") ((s.text? .output).getD "out.json") (!s.has .noEmpty)
  | .langs => .langs

namespace Command

def ofArguments (c : CommandName) (args : List String) : Except UsageError Command := do
  let s ← Scan.start.arguments c.options c.operand? args
  return (← s.finish c).command c

def helpName : String := "help"

def isCommand (name : String) : Bool :=
  name == helpName || (CommandName.ofText? name).isSome

/-- The commands that help is asked for. Beneath a command there are no others. -/
def help : List String → UsageError
  | [] => .displayHelp
  | [name] =>
    if isCommand name then .displayHelp else .invalidCommand
  | _ => .invalidCommand

/-- What is wrong with a command line that does not start with a command. Before the command there
is only the flag that asks for help. -/
def fault (arg : String) (rest : List String) : UsageError :=
  match arg.toList, rest with
  | ['-', '-'], [] => .missingCommand
  | ['-', '-'], name :: _ => if isCommand name then .unknownArgument else .invalidCommand
  | '-' :: '-' :: cs, _ =>
    match Scan.start.longOption [.help] cs with
    | .error e => e
    | .ok _ => .missingCommand
  | '-' :: c :: cs, _ =>
    match Scan.start.shortOptions [.help] (c :: cs) with
    | .error e => e
    | .ok _ => .missingCommand
  | _, _ => .invalidCommand

/-- Read a command line, which does not hold the name of the program. -/
def parse (args : List String) : Except UsageError Command :=
  match args with
  | [] => .error .missingCommand
  | arg :: rest =>
    if arg = helpName then .error (help rest)
    else
      match CommandName.ofText? arg with
      | some c => ofArguments c rest
      | none => .error (fault arg rest)

end Command
end CursorState.CommandLine
