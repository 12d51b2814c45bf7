import CursorState.CommandLine.Run

/-! The program: carries out the job of its command line. -/
namespace CursorState.CommandLine

/-- The number of an error of the operating system. It may come with either sign. -/
def errorCode? : IO.Error → Option Nat
  | .noFileOrDirectory _ code _ | .inappropriateType _ code _ | .permissionDenied _ code _
  | .invalidArgument _ code _ | .resourceExhausted _ code _ =>
    if code < 0x80000000 then some code.toNat else some (-code).toNat
  | _ => none

def fileError (e : IO.Error) : FileError :=
  ((errorCode? e).bind FileError.ofCode?).getD (.other e.toString)

def attempt {α : Type} (action : IO α) : IO (Except FileError α) := do
  try
    return .ok (← action)
  catch e =>
    return .error (fileError e)

partial def readAll (stream : IO.FS.Stream) (read : ByteArray) : IO ByteArray := do
  let chunk ← stream.read 65536
  if chunk.isEmpty then return read else readAll stream (read ++ chunk)

def writeAll (path : String) (content : ByteArray) : IO Unit :=
  IO.FS.withFile path .write fun file => do
    file.write content
    file.flush

def perform : Job → IO UInt32
  | .finish outcome => do
    IO.print outcome.output
    IO.eprint outcome.errors
    return UInt32.ofNat outcome.exitCode
  | .readInput next => do
    perform (next (← attempt do return (← readAll (← IO.getStdin) .empty).toList))
  | .readFile path next => do
    perform (next (← attempt do return (← IO.FS.readBinFile path).toList))
  | .writeFile path content next => do
    perform (next (← attempt (writeAll path ⟨content.toArray⟩)))

end CursorState.CommandLine

def main (args : List String) : IO UInt32 :=
  CursorState.CommandLine.perform (CursorState.CommandLine.jobOf args)
