import OfficeFormula.CommandLine.Run
import OfficeFormula.Markdown.Source

/-!
# A disk in memory

Files and directories by the parts of their paths from the root, and what has been printed. Every
file can be read and written. The names of files are limited in length, as on real disks.
-/

namespace OfficeFormula.CommandLine

inductive DiskEntry where
  | file (content : Text)
  | directory

/-- Files and directories, standard input, and what has been printed. -/
structure Disk where
  current : List Text
  entries : List (List Text × DiskEntry)
  input : Text
  printed : Text

namespace WriteFailure

def missing : WriteFailure := ⟨2, "No such file or directory".toList⟩

def notADirectory : WriteFailure := ⟨20, "Not a directory".toList⟩

def isADirectory : WriteFailure := ⟨21, "Is a directory".toList⟩

def nameTooLong : WriteFailure := ⟨36, "File name too long".toList⟩

end WriteFailure

/-- The length of a text in bytes. -/
def byteLength (t : Text) : Nat := (String.ofList t).utf8ByteSize

/-- Parts of a path longer than this are refused. -/
def maxNameBytes : Nat := 255

/-- Paths longer than this are refused. -/
def maxPathBytes : Nat := 4095

namespace Disk

/-- What stands at a place. The root is a directory. -/
def entry? (d : Disk) (place : List Text) : Option DiskEntry :=
  if place = [] then some .directory else d.entries.lookup place

/-- The place that parts of a path lead to from another place. -/
def follow (d : Disk) (place : List Text) : List Text → Except WriteFailure (List Text)
  | [] => .ok place
  | part :: rest =>
    match d.entry? place with
    | none => .error .missing
    | some (.file _) => .error .notADirectory
    | some .directory =>
      if part = ['.'] then d.follow place rest
      else if part = ['.', '.'] then d.follow place.dropLast rest
      else if maxNameBytes < byteLength part then .error .nameTooLong
      else d.follow (place ++ [part]) rest

/-- Where a path begins. -/
def start (d : Disk) (path : Text) : List Text := if path.head? = some '/' then [] else d.current

/-- A slash at the end of a path asks for a directory. -/
def endsWithSlash (path : Text) : Bool := path.getLast? = some '/'

/-- The place that a path names, whether there is something or not. -/
def place (d : Disk) (path : Text) : Except WriteFailure (List Text) :=
  if path = [] then .error .missing
  else if maxPathBytes < byteLength path then .error .nameTooLong
  else d.follow (d.start path) (parts path ++ if endsWithSlash path then [['.']] else [])

/-- What a path names. -/
def status (d : Disk) (path : Text) : Status :=
  match d.place path with
  | .error _ => .missing
  | .ok place =>
    match d.entry? place with
    | none => .missing
    | some (.file _) => .file true true
    | some .directory => .directory true

/-- The content of a file, with uniform line ends; empty if there is no file. -/
def content (d : Disk) (path : Text) : Text :=
  match d.place path with
  | .error _ => []
  | .ok place =>
    match d.entry? place with
    | some (.file t) => Markdown.uniformLineEnds t
    | _ => []

/-- The disk with a file at a place. -/
def put (d : Disk) (place : List Text) (content : Text) : Disk :=
  { d with entries := (place, .file content) :: d.entries.filter (·.1 ≠ place) }

/-- Writes a file, whose directory must be there. -/
def write (d : Disk) (path content : Text) : Except WriteFailure Disk := do
  if endsWithSlash path then
    let _ ← d.follow (d.start path) (parts path).dropLast
    throw .isADirectory
  let place ← d.place path
  match d.entry? place with
  | some .directory => throw .isADirectory
  | some (.file _) => return d.put place content
  | none =>
    match d.entry? place.dropLast with
    | some .directory => return d.put place content
    | some (.file _) => throw .notADirectory
    | none => throw .missing

/-- The command can run on a disk in memory. -/
def platform : Platform (StateM Disk) where
  currentDirectory := do return '/' :: Text.join ['/'] (← get).current
  status path := do return (← get).status path
  read path := do return (← get).content path
  readStandard := do return (← get).input
  print t := modify fun d => { d with printed := d.printed ++ t }
  write path content := do
    match (← get).write path content with
    | .ok d =>
      set d
      return none
    | .error f => return some f

end Disk

end OfficeFormula.CommandLine
