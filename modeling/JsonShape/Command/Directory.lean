import JsonShape.Command.Path

/-!
# A working directory

The files and directories below a working directory, as a value: what a command reads, and what is there
after it has written.
-/

namespace JsonShape

/-- The directories and files below a working directory, by the parts of their paths. -/
structure Directory where
  directories : List (List String) := []
  files : List (List String × List UInt8) := []

namespace Directory

/-- What a path leads to: a directory, a file, a new name in a directory, or a place outside. -/
inductive Place
  | directory (parts : List String)
  | file (parts : List String) (content : List UInt8)
  | free (parts : List String)
  | outside

/-- The directories that must be there for some parts: all that the parts go through. -/
def ancestors (parts : List String) : List (List String) :=
  (List.range parts.length).map parts.take

/-- Whether some parts lead to a directory. -/
def hasDirectory (d : Directory) (parts : List String) : Bool :=
  parts.isEmpty || d.directories.contains parts ||
    d.directories.any (fun p => (ancestors p).contains parts) ||
    d.files.any (fun f => (ancestors f.1).contains parts)

/-- The place of a name in a directory. -/
def entry (d : Directory) (parts : List String) : Place :=
  match d.files.lookup parts with
  | some content => .file parts content
  | none => if d.hasDirectory parts then .directory parts else .free parts

/-- The longest name of a file in bytes. -/
def maxNameBytes : Nat := 255

/-- Follows the parts of a path from a place. -/
def follow (d : Directory) : Place → List String → Except FileError Place
  | place, [] => .ok place
  | .directory parts, part :: rest =>
    if part = ".." then
      if parts.isEmpty then d.follow .outside rest
      else d.follow (.directory parts.dropLast) rest
    else if maxNameBytes < part.utf8ByteSize then .error .nameTooLong
    else d.follow (d.entry (parts ++ [part])) rest
  | .file _ _, _ :: _ => .error .notADirectory
  | .free _, _ :: _ => .error .notFound
  | .outside, part :: rest => if part = ".." then d.follow .outside rest else .error .notFound

/-- What a path leads to. A path from the root of the file system leads outside. -/
def place (d : Directory) (p : Path) : Except FileError Place :=
  if p.parts.any (·.toList.contains '\x00') then .error .nullInName
  else d.follow (if p.root.isEmpty then .directory [] else .outside) p.parts

/-- Reads a file. -/
def read (d : Directory) (p : Path) : Except FileError (List UInt8) :=
  (d.place p).bind fun
    | .file _ content => .ok content
    | .directory _ => .error .isADirectory
    | .outside => .error .isADirectory
    | .free _ => .error .notFound

/-- The directory with the content of a file set. -/
def store (d : Directory) (parts : List String) (content : List UInt8) : Directory :=
  { d with files := d.files.filter (·.1 ≠ parts) ++ [(parts, content)] }

/-- Writes a file, in the place of one that is there. -/
def write (d : Directory) (p : Path) (text : String) : Except FileError Directory :=
  (d.place p).bind fun
    | .file parts _ => .ok (d.store parts text.toUTF8.toList)
    | .free parts => .ok (d.store parts text.toUTF8.toList)
    | .directory _ => .error .isADirectory
    | .outside => .error .isADirectory

/-- Access to the files of a directory as a state. -/
def access : Files (StateM Directory) where
  read p := return (← get).read p
  write p text := do
    match (← get).write p text with
    | .ok d =>
      set d
      return .ok ()
    | .error e => return .error e

end Directory
end JsonShape
