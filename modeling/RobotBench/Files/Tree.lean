import RobotBench.Files.Basic

/-!
# A tree of files in memory

Files and directories as bindings of places, where a place is the list of names that lead
to it from the root. A path is followed name by name from the root or from the working
directory, and every name but the last must lead to a directory; `..` leads up, and at the
root it leads nowhere. There are no links.
-/

namespace RobotBench

/-- What a place can hold. -/
inductive TreeEntry where
  | file (content : ByteArray)
  | directory

/-- The entries below the root, each at its place, and the working directory. -/
structure Tree where
  entries : List (List String × TreeEntry)
  home : List String

namespace Tree

/-- The tree that holds nothing but the working directory and those above it. -/
def bare (home : List String) : Tree :=
  ⟨(List.range home.length).map fun k => (home.take (k + 1), .directory), home⟩

/-- What a place holds. -/
def find? (t : Tree) (place : List String) : Option TreeEntry :=
  if place = [] then some .directory
  else (t.entries.find? fun entry => entry.1 = place).map Prod.snd

/-- The tree with an entry in place of any other at the same place. -/
def set (t : Tree) (place : List String) (entry : TreeEntry) : Tree :=
  { t with entries := (place, entry) :: t.entries.filter fun old => old.1 ≠ place }

/-- Passes only when the place holds a directory. -/
def demandDirectory (t : Tree) (place : List String) : Except FileFault Unit :=
  match t.find? place with
  | some .directory => .ok ()
  | some (.file _) => .error .notDirectory
  | none => .error .notFound

/-- Where a name leads from a directory, be there anything or not. -/
def enter (t : Tree) (place : List String) (name : String) : Except FileFault (List String) := do
  t.demandDirectory place
  if name = "." then return place
  else if name = ".." then return place.dropLast
  else if Path.nameLimit < name.utf8ByteSize then throw .nameTooLong
  else return place ++ [name]

/-- Where names lead, one after the other. -/
def walk (t : Tree) : List String → List String → Except FileFault (List String)
  | place, [] => .ok place
  | place, name :: more => do t.walk (← t.enter place name) more

/-- The place at which a path begins. -/
def origin (t : Tree) (path : String) : List String :=
  if Path.isAbsolute path then [] else t.home

/-- The names of a path that can be followed. -/
def usable (path : String) : Except FileFault (List String) :=
  match Path.fault? path with
  | some fault => .error fault
  | none => .ok (Path.names path)

/-- The content of a file. -/
def read (t : Tree) (path : String) : Except FileFault ByteArray := do
  match t.find? (← t.walk (t.origin path) (← usable path)) with
  | some (.file content) => if Path.endsInSlash path then throw .notDirectory else return content
  | some .directory => throw .isDirectory
  | none => throw .notFound

/-- The path leads to a file. -/
def isFile (t : Tree) (path : String) : Bool :=
  match t.read path with
  | .ok _ => true
  | .error _ => false

/-- Gives a file its content. Its directory must be there. -/
def write (t : Tree) (path : String) (content : ByteArray) : Except FileFault Tree := do
  let names ← usable path
  let above ← t.walk (t.origin path) names.dropLast
  t.demandDirectory above
  if Path.endsInSlash path then throw .isDirectory
  let place ← t.walk above names.getLast?.toList
  match t.find? place with
  | some .directory => throw .isDirectory
  | _ => return t.set place (.file content)

/-- Makes one directory. -/
def make (t : Tree) (start names : List String) : Except FileFault Tree := do
  let above ← t.walk start names.dropLast
  t.demandDirectory above
  let place ← t.walk above names.getLast?.toList
  match t.find? place with
  | some _ => throw .alreadyExists
  | none => return t.set place .directory

/-- Names lead to a directory. -/
def isDirectory (t : Tree) (start names : List String) : Bool :=
  match t.walk start names with
  | .ok place => (t.demandDirectory place).isOk
  | .error _ => false

/-- Makes one directory or finds it made. -/
def ensure (t : Tree) (start names : List String) : Except FileFault Tree :=
  match t.make start names with
  | .error fault => if t.isDirectory start names then .ok t else .error fault
  | made => made

/-- Makes the directory that names lead to, after the one above it when that is missing. The
names come last name first. -/
def ensureAll (start : List String) : List String → Tree → Except FileFault Tree
  | [], t => .ok t
  | last :: above, t =>
    let names := (last :: above).reverse
    match t.ensure start names with
    | .error .notFound => do (← ensureAll start above t).ensure start names
    | result => result

/-- Makes a directory and those above it where they are missing. -/
def createDirectory (t : Tree) (path : String) : Except FileFault Tree := do
  ensureAll (t.origin path) (← usable path).reverse t

/-- Applies a change to the tree when it succeeds. -/
def change (act : Tree → Except FileFault Tree) : StateM Tree (Except FileFault Unit) :=
  fun t => match act t with
    | .ok changed => (.ok (), changed)
    | .error fault => (.error fault, t)

/-- The operations on the files of a tree. -/
def files : Files (StateM Tree) where
  read path := fun t => (t.read path, t)
  isFile path := fun t => (t.isFile path, t)
  createDirectory path := change fun t => t.createDirectory path
  write path content := change fun t => t.write path content

end Tree

end RobotBench
