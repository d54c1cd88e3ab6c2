/-!
# Files

What can go wrong with a file, and the operations on files that a command needs, in any
monad: a command runs the same on the files of a machine and on a tree kept in memory.
Some paths are refused before they are followed; `Path.fault?` says which.
-/

namespace RobotBench

/-- What can go wrong with a file. -/
inductive FileFault where
  | notFound
  | permissionDenied
  | alreadyExists
  | notDirectory
  | isDirectory
  | nameTooLong
  | nulInName
  | notText
  | other (message : String)
  deriving DecidableEq

/-- What went wrong with a file, in words. -/
def FileFault.message : FileFault → String
  | notFound => "No such file or directory (os error 2)"
  | permissionDenied => "Permission denied (os error 13)"
  | alreadyExists => "File exists (os error 17)"
  | notDirectory => "Not a directory (os error 20)"
  | isDirectory => "Is a directory (os error 21)"
  | nameTooLong => "File name too long (os error 36)"
  | nulInName => "file name contained an unexpected NUL byte"
  | notText => "stream did not contain valid UTF-8"
  | other message => message

/-- Operations on files by path. -/
structure Files (m : Type → Type) where
  /-- The content of a file. -/
  read : String → m (Except FileFault ByteArray)
  /-- The path leads to a file. -/
  isFile : String → m Bool
  /-- Makes a directory and those above it where they are missing. -/
  createDirectory : String → m (Except FileFault Unit)
  /-- Gives a file its content, whether it was there or not. -/
  write : String → ByteArray → m (Except FileFault Unit)

namespace Path

/-- The most bytes that a name may have. -/
def nameLimit : Nat := 255

/-- A path has fewer bytes than this. -/
def lengthLimit : Nat := 4096

/-- The parts of a path between slashes. -/
def split (path : List Char) : List (List Char) :=
  match path with
  | [] => [[]]
  | c :: rest =>
    if c = '/' then [] :: split rest
    else match split rest with
      | [] => [[c]]
      | part :: more => (c :: part) :: more

/-- The names in a path, in order. The names `.` and `..` are among them. -/
def names (path : String) : List String :=
  ((split path.toList).filter fun part => part ≠ []).map String.ofList

/-- The path begins at the root. -/
def isAbsolute (path : String) : Bool := path.toList.head? = some '/'

/-- The path can only name a directory. -/
def endsInSlash (path : String) : Bool := path.toList.getLast? = some '/'

/-- What makes a path unusable before it is followed. -/
def fault? (path : String) : Option FileFault :=
  if path.toList.contains '\x00' then some .nulInName
  else if path = "" then some .notFound
  else if lengthLimit ≤ path.utf8ByteSize then some .nameTooLong
  else none

/-- A part that leads nowhere: nothing between two slashes, or the directory itself. -/
def isIdle (part : List Char) : Bool := part = [] ∨ part = ['.']

/-- Parts with slashes between them again. -/
def join : List (List Char) → List Char
  | [] => []
  | [part] => part
  | part :: more => part ++ '/' :: join more

/-- The directory that a path stands in, as written in the path; nothing for a path of one
part. -/
def parent? (path : String) : Option String :=
  match (split path.toList).reverse.dropWhile isIdle with
  | [] => none
  | _ :: above =>
    match above.dropWhile isIdle with
    | [] =>
      if isAbsolute path then some "/" else if above = [] then none else some "."
    | kept => some (String.ofList (join kept.reverse))

end Path

end RobotBench
