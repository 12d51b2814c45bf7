import CursorState.Text.DecimalDigit

/-! The commands, their arguments, and the values that arguments take. -/
namespace CursorState.CommandLine
open Text

inductive UsageError where
  /-- Help was asked for. -/
  | displayHelp
  /-- Nothing was asked for. -/
  | missingCommand
  | invalidCommand
  | unknownArgument
  | missingArgument
  /-- An option without its value, or an empty path. -/
  | missingValue
  | badNumber
  | conflict
  /-- A value for a flag. -/
  | unexpectedValue
  deriving DecidableEq, Repr

def UsageError.exitCode : UsageError → Nat
  | displayHelp => 0
  | _ => 2

inductive CommandName where
  | state
  | offset
  | table
  | langs
  deriving DecidableEq, Repr

inductive Argument where
  | help
  | sourcePath
  | sourceText
  | language
  | row
  | column
  | tabWidth
  | verbose
  | input
  | output
  | noEmpty
  deriving DecidableEq, Repr

inductive ValueKind where
  | flag
  | text
  | path
  /-- A 32-bit word from `least` on. -/
  | word (least : Nat)
  deriving DecidableEq, Repr

inductive ArgumentValue where
  | set
  | text (s : String)
  | word (n : UInt32)
  deriving DecidableEq, Repr

namespace Argument

def kind : Argument → ValueKind
  | help | verbose | noEmpty => .flag
  | sourceText | language => .text
  | sourcePath | input | output => .path
  | row | column => .word 0
  | tabWidth => .word 1

def long? : Argument → Option String
  | help => some "help"
  | sourceText => some "source"
  | language => some "lang"
  | row => some "row"
  | column => some "col"
  | tabWidth => some "tab-width"
  | verbose => some "verbose"
  | output => some "output"
  | noEmpty => some "no-empty"
  | sourcePath | input => none

def short? : Argument → Option Char
  | help => some 'h'
  | sourceText => some 's'
  | language => some 'l'
  | verbose => some 'v'
  | output => some 'o'
  | sourcePath | row | column | tabWidth | input | noEmpty => none

end Argument

namespace CommandName

def all : List CommandName := [state, offset, table, langs]

def text : CommandName → String
  | state => "state"
  | offset => "offset"
  | table => "table"
  | langs => "langs"

def ofText? (s : String) : Option CommandName :=
  all.find? fun c => c.text == s

def options : CommandName → List Argument
  | state => [.sourceText, .language, .row, .column, .tabWidth, .verbose, .help]
  | offset => [.sourceText, .row, .column, .tabWidth, .help]
  | table => [.output, .noEmpty, .help]
  | langs => [.help]

/-- The argument that is given by its place. -/
def operand? : CommandName → Option Argument
  | state | offset => some .sourcePath
  | table => some .input
  | langs => none

def required : CommandName → List Argument
  | state | offset => [.row, .column]
  | table => [.input]
  | langs => []

end CommandName

/-- A word: digits, perhaps after a sign. Below zero there is only `-0`. -/
def readWord (cs : List Char) : Option Nat :=
  match cs with
  | '+' :: digits => readBelow UInt32.size digits
  | '-' :: digits => readBelow 1 digits
  | digits => readBelow UInt32.size digits

def ValueKind.read : ValueKind → Option String → Except UsageError ArgumentValue
  | flag, _ => .ok .set
  | _, none => .error .missingValue
  | text, some s => .ok (.text s)
  | path, some s => if s.isEmpty then .error .missingValue else .ok (.text s)
  | word least, some s =>
    match readWord s.toList with
    | some n => if least ≤ n then .ok (.word (UInt32.ofNat n)) else .error .badNumber
    | none => .error .badNumber

end CursorState.CommandLine
