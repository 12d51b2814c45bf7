import CursorState.CommandLine.Folder
import CursorState.Text.Utf8

/-! What a command does to the world, one effect after another. -/
namespace CursorState.CommandLine

structure Outcome where
  exitCode : Nat
  output : String
  errors : String
  deriving DecidableEq, Repr

namespace Outcome

def success (output : String) : Outcome := ⟨0, output, ""⟩

def failure (message : String) : Outcome := ⟨1, "", s!"error: {message}\n"⟩

def after (d : Device) (content : List UInt8) (o : Outcome) : Outcome :=
  let text := String.ofList (Text.decode content)
  match d with
  | .output => ⟨o.exitCode, text ++ o.output, o.errors⟩
  | .errors => ⟨o.exitCode, o.output, text ++ o.errors⟩
  | .null | .full | .input => o

end Outcome

/-- Effects, each followed by what is done with its result. -/
inductive Job where
  | finish (outcome : Outcome)
  | readInput (next : Except FileError (List UInt8) → Job)
  | readFile (path : String) (next : Except FileError (List UInt8) → Job)
  | writeFile (path : String) (content : List UInt8) (next : Except FileError Unit → Job)

/-- The outcome of a job in a folder, with a given standard input, and the folder afterwards. -/
def Job.run (input : List UInt8) (folder : Folder) : Job → Outcome × Folder
  | finish outcome => (outcome, folder)
  | readInput next => (next (.ok input)).run input folder
  | readFile path next => (next (folder.read input path)).run input folder
  | writeFile path content next =>
    match folder.target path with
    | .error e => (next (.error e)).run input folder
    | .ok (.file names) => (next (.ok ())).run input (folder.insert names content)
    | .ok (.device .full) => (next (.error .noSpace)).run input folder
    | .ok (.device d) =>
      let (outcome, folder) := (next (.ok ())).run input folder
      (outcome.after d content, folder)

end CursorState.CommandLine
