import CursorState.CommandLine.Command
import CursorState.CommandLine.Job
import CursorState.Query
import CursorState.StateTable.Conversion
import CursorState.Text.Utf8

/-! What the commands do. -/
namespace CursorState.CommandLine

inductive SourceFault where
  | noSource
  /-- A text on the command line has no extension that tells its language. -/
  | noLanguage
  deriving DecidableEq, Repr

def SourceFault.message : SourceFault → String
  | noSource => "source is required: use positional argument, - for stdin, or -s/--source"
  | noLanguage => "--lang is required when using --source"

def sourceFault? (hasSource inline needsLanguage hasLanguage : Bool) : Option SourceFault :=
  if !hasSource then some .noSource
  else if needsLanguage && inline && !hasLanguage then some .noLanguage
  else none

def inputPath : String := "-"

def readFault (path : String) (e : FileError) : Outcome :=
  .failure s!"failed to read '{path}': {e.message}"

/-- Load the text that the arguments name. Its bytes are kept as they are. -/
def SourceArguments.load (source : SourceArguments) (next : List UInt8 → Job) : Job :=
  match source.text, source.path with
  | some text, _ => next (Text.encode text.toList)
  | none, some path =>
    if path = inputPath then
      .readInput fun
        | .ok bytes => next bytes
        | .error e => .finish (.failure s!"failed to read stdin: {e.message}")
    else
      .readFile path fun
        | .ok bytes => next bytes
        | .error e => .finish (readFault path e)
  | none, none => .finish (.failure SourceFault.noSource.message)

def unknownLanguage (name : String) : String :=
  let hint := match Language.suggest? name with
    | some suggestion => s!"\n\nDid you mean '{suggestion}'?"
    | none => ""
  Language.unknownMessage name ++ hint ++ "\n\nRun 'stoppoint langs' for the full list."

/-- The language that is named, or else that of the file's extension. -/
def chooseLanguage (name path : Option String) : Except String Language :=
  match name with
  | some name =>
    match Language.ofName? name with
    | some l => .ok l
    | none => .error (unknownLanguage name)
  | none =>
    match (path.filter (· ≠ inputPath)).bind pathExtension? with
    | some extension =>
      match Language.ofExtension? extension with
      | some l => .ok l
      | none => .error s!"cannot infer language from extension '.{extension}', use --lang"
    | none => .error "--lang is required (cannot infer from input)"

def SourceArguments.point (source : SourceArguments) : Point :=
  ⟨source.row, source.column⟩

def SourceArguments.fault? (source : SourceArguments) (needsLanguage hasLanguage : Bool) :
    Option SourceFault :=
  sourceFault? (source.path.isSome || source.text.isSome) source.text.isSome needsLanguage
    hasLanguage

/-- Check the arguments and load the text; only then the tab width is looked at. -/
def SourceArguments.start (source : SourceArguments) (needsLanguage hasLanguage : Bool)
    (next : List UInt8 → Job) : Job :=
  match source.fault? needsLanguage hasLanguage with
  | some fault => .finish (.failure fault.message)
  | none => source.load next

def SourceArguments.withTabWidth (source : SourceArguments) (next : TabWidth → Job) : Job :=
  match TabWidth.ofColumns? source.tabWidth with
  | some w => next w
  | none => .finish (.failure "--tab-width must be at least 1")

/-- The job of a command, in a build with some grammars. The source is read before its language is
looked for. -/
def Command.job (grammars : Language → CompiledGrammar) : Command → Job
  | .state source language verbose =>
    source.start true language.isSome fun text =>
      match chooseLanguage language source.path with
      | .error message => .finish (.failure message)
      | .ok l =>
        source.withTabWidth fun w =>
          match ((grammars l).query w text source.point).1 with
          | .ok r => .finish (.success (r.render verbose))
          | .error e => .finish (.failure e.message)
  | .offset source =>
    source.start false false fun text =>
      source.withTabWidth fun w =>
        .finish (.success s!"{byteOffset text source.point w}\n")
  | .table input output includeEmpty =>
    .readFile input fun
      | .error e => .finish (readFault input e)
      | .ok bytes =>
        match StateTable.convert (String.ofList (Text.decode bytes)) includeEmpty with
        | .error e => .finish (.failure e.message)
        | .ok t =>
          .writeFile output (Text.encode t.print.toList) fun
            | .ok () => .finish (.success s!"Wrote: {output}\n")
            | .error e => .finish (.failure s!"failed to write '{output}': {e.message}")
  | .langs => .finish (.success (CompiledGrammar.renderAll (Language.all.map grammars)))

def helpText : String :=
  "Parser automaton state at an editor cursor\n\n" ++
  "stoppoint state [SOURCE] [-s TEXT] [-l LANG] --row ROW --col COL [--tab-width N] [-v]\n" ++
  "stoppoint offset [SOURCE] [-s TEXT] --row ROW --col COL [--tab-width N]\n" ++
  "stoppoint table INPUT [-o FILE] [--no-empty]\n" ++
  "stoppoint langs\n"

/-- A command line that is not carried out: help goes to the output, all else to the errors. -/
def UsageError.outcome (e : UsageError) : Outcome :=
  match e with
  | .displayHelp => .success helpText
  | _ => ⟨e.exitCode, "", helpText⟩

def jobFor (grammars : Language → CompiledGrammar) (args : List String) : Job :=
  match Command.parse args with
  | .ok c => c.job grammars
  | .error e => .finish e.outcome

def jobOf (args : List String) : Job :=
  jobFor Language.grammar args

end CursorState.CommandLine
