import FixedLayout.CommandLine.Answer

/-! A disk: the texts of files by their places, and how the system finds a file by its path. On a
disk a whole run of the command is a function: it answers a report and the disk that is left. -/

namespace FixedLayout.CommandLine

/-- Where a file or a directory is: the names on the way from the working directory, its own last.
The name `..` leads to the directory above, and `/` at the front to the root. -/
abbrev Place := List String

namespace Place

/-- The working directory, the directories above it, and the root. -/
def isGiven (p : Place) : Bool := p.all (· == "..") || p == ["/"]

/-- The directory that holds a place. The root holds itself. -/
def above (p : Place) : Place :=
  if p == ["/"] then p
  else if p.isGiven then p ++ [".."]
  else p.dropLast

end Place

/-- A path taken apart. -/
structure Path where
  /-- Where it begins. -/
  start : Place
  /-- What stands between its slashes. -/
  names : List String
  /-- A slash stands at its end. -/
  closed : Bool
deriving Repr, DecidableEq

namespace Path

def maxBytes : Nat := 4095

def maxNameBytes : Nat := 255

/-- Takes a path apart. Several slashes count as one. -/
def ofText (text : String) : Except FileFault Path :=
  if text.isEmpty then .error .notFound
  else if maxBytes < text.utf8ByteSize then .error .nameTooLong
  else
    .ok
      { start := if text.toList.head? == some '/' then ["/"] else []
        names := ((Text.splitAt '/' text.toList).filter (!·.isEmpty)).map String.ofList
        closed := text.toList.getLast? == some '/' }

end Path

/-- The files with their texts. A directory is there when a file is in it. -/
structure Disk where
  files : List (Place × String)
deriving Repr, DecidableEq

namespace Disk

def text? (d : Disk) (p : Place) : Option String := d.files.lookup p

def isDirectory (d : Disk) (p : Place) : Bool :=
  p.isGiven || d.files.any fun file => p.isPrefixOf file.1 && p != file.1

def directoryFault? (d : Disk) (p : Place) : Option FileFault :=
  if d.isDirectory p then none
  else if (d.text? p).isSome then some .notDirectory
  else some .notFound

def step (d : Disk) (p : Place) (name : String) : Except FileFault Place :=
  match d.directoryFault? p with
  | some fault => .error fault
  | none =>
    if name == "." then .ok p
    else if name == ".." then .ok p.above
    else if Path.maxNameBytes < name.utf8ByteSize then .error .nameTooLong
    else .ok (p ++ [name])

def walk (d : Disk) (p : Place) (names : List String) : Except FileFault Place :=
  names.foldlM d.step p

/-- The text of the file with a path. A slash at the end asks for a directory. -/
def read (d : Disk) (path : String) : Except FileFault String := do
  let path ← Path.ofText path
  let place ← d.walk path.start (if path.closed then path.names ++ ["."] else path.names)
  if d.isDirectory place then .error .isDirectory
  else match d.text? place with
    | some text => .ok text
    | none => .error .notFound

/-- The disk with a text at a place, where another one may have been. -/
def put (d : Disk) (p : Place) (text : String) : Disk :=
  ⟨d.files.filter (·.1 != p) ++ [(p, text)]⟩

/-- The disk after a text is written to the file with a path. Its directory must be there. A path
with a slash at the end cannot name a file, whatever is there. -/
def write (d : Disk) (path text : String) : Except FileFault Disk := do
  let path ← Path.ofText path
  let directory ← d.walk path.start path.names.dropLast
  match d.directoryFault? directory, path.names.getLast? with
  | some fault, _ => .error fault
  | none, none => .error .isDirectory
  | none, some name =>
    if path.closed then .error .isDirectory
    else
      let place ← d.step directory name
      if d.isDirectory place then .error .isDirectory else .ok (d.put place text)

end Disk

/-- A run of a request on a disk. -/
def Request.runOn (request : Request) (disk : Disk) : Report × Disk :=
  match request.answer disk.read with
  | .done report => (report, disk)
  | .write path text next =>
    match disk.write path text with
    | .ok disk => (next (.ok ()), disk)
    | .error fault => (next (.error fault), disk)

end FixedLayout.CommandLine
