import JsonShape.Text.Character
import JsonShape.Text.Utf8

/-!
# Paths and files

Paths as commands write them, and why a file cannot be read or written. A path is shown without empty
and `.` parts; `..` parts stay, as what they lead to depends on the directories.
-/

namespace JsonShape

/-- A path: what it starts at (`""` for the working directory) and its parts. -/
structure Path where
  root : String
  parts : List String
  deriving DecidableEq, Repr

namespace Path

/-- The root of a text with so many slashes at its front; exactly two are kept. -/
def rootOf : (slashes : Nat) → String
  | 0 => ""
  | 2 => "//"
  | _ => "/"

/-- The path that a text writes. -/
def ofString (s : String) : Path :=
  { root := rootOf (s.toList.takeWhile (· = '/')).length
    parts := (s.splitOn "/").filter fun part => !part.isEmpty && part ≠ "." }

/-- A path as it is shown. -/
def display (p : Path) : String :=
  if p.root.isEmpty && p.parts.isEmpty then "." else p.root ++ "/".intercalate p.parts

end Path

/-- Why a file cannot be read or written. -/
inductive FileError
  | notFound
  | notADirectory
  | isADirectory
  | nameTooLong
  | nullInName
  deriving DecidableEq, Repr

namespace FileError

/-- An error about a path in words. -/
def message (e : FileError) (p : Path) : String :=
  let about (number : Nat) (what : String) := s!"[Errno {number}] {what}: {Text.quoted p.display}"
  match e with
  | .notFound => about 2 "No such file or directory"
  | .notADirectory => about 20 "Not a directory"
  | .isADirectory => about 21 "Is a directory"
  | .nameTooLong => about 36 "File name too long"
  | .nullInName => "embedded null byte"

end FileError

/-- Access to files in some monad. -/
structure Files (m : Type → Type) where
  read : Path → m (Except FileError (List UInt8))
  write : Path → String → m (Except FileError Unit)

end JsonShape
