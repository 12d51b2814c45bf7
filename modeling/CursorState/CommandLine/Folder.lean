/-! Files of a folder, and how paths lead to them. -/
namespace CursorState.CommandLine

inductive FileError where
  | notFound
  | notPermitted
  | notDirectory
  | isDirectory
  | noSpace
  | nameTooLong
  | other (text : String)
  deriving DecidableEq, Repr

namespace FileError

def message : FileError → String
  | notFound => "No such file or directory (os error 2)"
  | notPermitted => "Permission denied (os error 13)"
  | notDirectory => "Not a directory (os error 20)"
  | isDirectory => "Is a directory (os error 21)"
  | noSpace => "No space left on device (os error 28)"
  | nameTooLong => "File name too long (os error 36)"
  | other text => text

def ofCode? : Nat → Option FileError
  | 2 => some notFound
  | 13 => some notPermitted
  | 20 => some notDirectory
  | 21 => some isDirectory
  | 28 => some noSpace
  | 36 => some nameTooLong
  | _ => none

end FileError

def pathParts (path : String) : List String :=
  path.splitOn "/"

/-- The names on a path; empty parts and single dots lead nowhere. -/
def pathNames (path : String) : List String :=
  (pathParts path).filter fun part => part ≠ "" ∧ part ≠ "."

/-- The extension of the file that a path leads to: what follows the last dot of its name, if
something stands before that dot. -/
def pathExtension? (path : String) : Option String := do
  let name ← (pathNames path).getLast?
  if name = ".." then none
  else
    match name.toList.reverse.span (· ≠ '.') with
    | (after, _ :: before) => if before.isEmpty then none else some (String.ofList after.reverse)
    | (_, []) => none

inductive Device where
  /-- It is empty and keeps nothing. -/
  | null
  /-- It has no room. -/
  | full
  | input
  | output
  | errors
  deriving DecidableEq, Repr

def devices : List (List String × Device) :=
  [(["dev", "null"], .null), (["dev", "full"], .full),
   (["dev", "stdin"], .input), (["dev", "fd", "0"], .input),
   (["dev", "stdout"], .output), (["dev", "fd", "1"], .output),
   (["dev", "stderr"], .errors), (["dev", "fd", "2"], .errors)]

def rootDirectories : List String :=
  ["bin", "boot", "dev", "etc", "home", "lib", "media", "mnt", "opt", "proc", "root", "run", "sbin",
   "srv", "sys", "tmp", "usr", "var"]

/-- Why no file can be made under some names: the system alone fills those directories. -/
def sealed? : List String → Option FileError
  | "proc" :: _ | "dev" :: "fd" :: _ => some .notFound
  | "sys" :: _ => some .notPermitted
  | _ => none

inductive Entry where
  | directory
  | file (content : List UInt8)
  | device (d : Device)
  deriving DecidableEq, Repr

/-- What can be written to: a file, which need not be there yet, or a device. -/
inductive Target where
  | file (names : List String)
  | device (d : Device)
  deriving DecidableEq, Repr

/-- A folder from which relative paths start, and the files that are known. Names lead from the
root; the directories on the way to a file exist. -/
structure Folder where
  location : List String
  files : List (List String × List UInt8)

namespace Folder

def empty : Folder := ⟨["tmp", "work"], []⟩

def isDirectory (f : Folder) (names : List String) : Bool :=
  names.isPrefixOf f.location || (rootDirectories.map ([·])).contains names ||
    (f.files.map Prod.fst ++ devices.map Prod.fst).any fun other =>
      names.isPrefixOf other && names != other

def entry? (f : Folder) (names : List String) : Option Entry :=
  match f.files.lookup names, devices.lookup names with
  | some content, _ => some (.file content)
  | none, some d => some (.device d)
  | none, none => if f.isDirectory names then some .directory else none

def insert (f : Folder) (names : List String) (content : List UInt8) : Folder :=
  ⟨f.location, (f.files.filter fun file => file.1 ≠ names) ++ [(names, content)]⟩

def add (f : Folder) (path : String) (content : List UInt8) : Folder :=
  f.insert (f.location ++ pathNames path) content

def ownFiles (f : Folder) : List (String × List UInt8) :=
  f.files.filterMap fun (names, content) =>
    match names.drop f.location.length with
    | [name] => if f.location.isPrefixOf names then some (name, content) else none
    | _ => none

/-- Go from a directory through the parts of a path. Every part but the last has to be a directory;
what the last one is remains to be seen. Above the root lies the root. -/
def follow (f : Folder) (here : List String) : List String → Except FileError (List String)
  | [] => .ok here
  | part :: rest =>
    match f.entry? here with
    | none => .error .notFound
    | some .directory =>
      if 255 < part.utf8ByteSize then .error .nameTooLong
      else if part = "" ∨ part = "." then follow f here rest
      else if part = ".." then follow f here.dropLast rest
      else follow f (here ++ [part]) rest
    | some _ => .error .notDirectory

/-- Where the first parts of a path lead. The whole path must not be too long. -/
def locate (f : Folder) (path : String) (parts : List String) :
    Except FileError (List String) :=
  if 4096 ≤ path.utf8ByteSize then .error .nameTooLong
  else f.follow (if path.startsWith "/" then [] else f.location) parts

/-- What is read under a path; the standard input holds `input`, and no other device holds
anything. -/
def read (f : Folder) (input : List UInt8) (path : String) : Except FileError (List UInt8) := do
  match f.entry? (← f.locate path (pathParts path)) with
  | some (.file content) => .ok content
  | some (.device .input) => .ok input
  | some (.device _) => .ok []
  | some .directory => .error .isDirectory
  | none => .error .notFound

/-- What a path leads to for writing. A path that ends in a slash names no file, but what leads to
it is looked at first. -/
def target (f : Folder) (path : String) : Except FileError Target :=
  if path.endsWith "/" then do
    let _ ← f.locate path ((pathParts (path.dropEndWhile (· == '/')).copy).dropLast ++ ["."])
    .error .isDirectory
  else do
    let names ← f.locate path (pathParts path)
    match f.entry? names, sealed? names with
    | some .directory, _ => .error .isDirectory
    | some (.device d), _ => .ok (.device d)
    | some (.file _), _ | none, none => .ok (.file names)
    | none, some e => .error e

end Folder
end CursorState.CommandLine
