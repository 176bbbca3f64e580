import JasmineConversion.Entries
import JasmineConversion.Files.FileName

/-! # A tree of files

A tree maps places, which are the names on the way from its root, to the files and directories that are
there. Paths with a leading slash start at the root, and all others at the working directory. The root
is the directory above itself. Names and paths have limited lengths in bytes.
-/

namespace JasmineConversion

/-- The names on the way from the root to a file or directory. -/
abbrev Place := List FileName

/-- What is at a place in a tree. -/
inductive FileEntry where
  | directory
  | file (content : List UInt8)
  deriving DecidableEq

/-- A tree of files, and the place of its working directory. -/
structure FileTree where
  entries : Entries Place FileEntry := []
  base : Place := []
  deriving DecidableEq

/-- Where a path leads. -/
inductive Destination where
  | directory (place : Place)
  | file (place : Place) (content : List UInt8)
  | vacant (place : Place)
  | missing
  | blocked
  | tooLong
  deriving DecidableEq

namespace Destination

/-- Whether there is something at a destination. -/
def isThere : Destination → Bool
  | directory _ => true
  | file _ _ => true
  | _ => false

/-- Whether a destination is a directory. -/
def isDirectory : Destination → Bool
  | directory _ => true
  | _ => false

/-- Whether a destination is a file. -/
def isFile : Destination → Bool
  | file _ _ => true
  | _ => false

end Destination

/-- Why an operation on files is refused. -/
inductive FileFault where
  | isDirectory
  | notDirectory
  | alreadyThere
  | absent
  | nameTooLong
  deriving DecidableEq

/-- A refused operation and the path it was tried on. -/
structure FileError where
  fault : FileFault
  path : Codes
  deriving DecidableEq

namespace FileTree

/-- The most bytes that a name may have. -/
def nameLimit : Nat := 255

/-- The most bytes that a path may have. -/
def pathLimit : Nat := 4095

/-! ## Looking up -/

/-- The entry at a place. The root has none. -/
def get? (tree : FileTree) (place : Place) : Option FileEntry :=
  Entries.get? place tree.entries

/-- A tree with an entry put at a place. -/
def put (tree : FileTree) (place : Place) (entry : FileEntry) : FileTree :=
  { tree with entries := Entries.put place entry tree.entries }

/-- What is at a place below the root. -/
def entryAt (tree : FileTree) (place : Place) : Destination :=
  match tree.get? place with
  | some .directory => .directory place
  | some (.file content) => .file place content
  | none => .vacant place

/-- One step on the way along a path. -/
def walkStep (tree : FileTree) : Destination → FileName → Destination
  | .directory place, name =>
    if name.length > nameLimit then .tooLong
    else if name = FileName.parent then .directory place.dropLast
    else tree.entryAt (place ++ [name])
  | .file _ _, _ => .blocked
  | .vacant _, _ => .missing
  | .missing, _ => .missing
  | .blocked, _ => .blocked
  | .tooLong, _ => .tooLong

/-- Where the way along a path starts. -/
def start (tree : FileTree) (path : Path) : Destination :=
  .directory (if path.slashes = 0 then tree.base else [])

/-- Where a path leads. One that cannot be handed to the system leads nowhere. -/
def walk (tree : FileTree) (path : Path) : Destination :=
  if path.hazard?.isSome then .missing
  else if (FileName.encode path.codes).length > pathLimit then .tooLong
  else (path.parts.map FileName.encode).foldl tree.walkStep (tree.start path)

/-- Looks up where a path leads. A name that is too long cannot be looked up. -/
def look (tree : FileTree) (path : Path) : Except FileError Destination :=
  match tree.walk path with
  | .tooLong => .error ⟨.nameTooLong, path.codes⟩
  | found => .ok found

/-! ## Making and writing -/

/-- Makes a directory at a path. -/
def makeDirectory (tree : FileTree) (path : Path) : Except FileError FileTree :=
  match tree.walk path with
  | .directory _ => .error ⟨.alreadyThere, path.codes⟩
  | .file _ _ => .error ⟨.alreadyThere, path.codes⟩
  | .vacant place => .ok (tree.put place .directory)
  | .missing => .error ⟨.absent, path.codes⟩
  | .blocked => .error ⟨.notDirectory, path.codes⟩
  | .tooLong => .error ⟨.nameTooLong, path.codes⟩

/-- Makes a directory at a path, unless there is one. The tree is given with what was made before a
failure. -/
def ensureDirectory (tree : FileTree) (path : Path) : FileTree × Option FileError :=
  match tree.makeDirectory path with
  | .ok made => (made, none)
  | .error error => (tree, if (tree.walk path).isDirectory then none else some error)

/-- Makes the directories on the way to a path and the one at it. Only when one on the way is
missing are those before it made. -/
def ensureDirectories (tree : FileTree) (slashes : Nat) : (back : List Codes) →
    FileTree × Option FileError
  | [] => tree.ensureDirectory ⟨slashes, []⟩
  | name :: back =>
    let path : Path := ⟨slashes, (name :: back).reverse⟩
    match tree.makeDirectory path with
    | .error ⟨.absent, _⟩ =>
      match tree.ensureDirectories slashes back with
      | (above, none) => above.ensureDirectory path
      | failed => failed
    | .ok made => (made, none)
    | .error error => (tree, if (tree.walk path).isDirectory then none else some error)

/-- Makes all the directories on the way to a path. -/
def ensureParent (tree : FileTree) (path : Path) : FileTree × Option FileError :=
  tree.ensureDirectories path.slashes path.parent.parts.reverse

/-- Writes a file at a path. -/
def write (tree : FileTree) (path : Path) (content : List UInt8) : Except FileError FileTree :=
  match tree.walk path with
  | .directory _ => .error ⟨.isDirectory, path.codes⟩
  | .file place _ => .ok (tree.put place (.file content))
  | .vacant place => .ok (tree.put place (.file content))
  | .missing => .error ⟨.absent, path.codes⟩
  | .blocked => .error ⟨.notDirectory, path.codes⟩
  | .tooLong => .error ⟨.nameTooLong, path.codes⟩

/-! ## Listing -/

/-- The names behind `lead`, if the names start with it and go on. -/
def below? : (lead names : Place) → Option Place
  | [], name :: rest => some (name :: rest)
  | first :: lead, name :: rest => if first = name then below? lead rest else none
  | _, [] => none

/-- The names of all entries below a directory, relative to it and as a program sees them, in order. -/
def namesBelow (tree : FileTree) (directory : Place) : List (List Codes) :=
  (tree.entries.filterMap fun entry => (below? directory entry.1).map (·.map FileName.decode)).mergeSort
    fun first second => !Path.namesBefore second first

/-- Adds an entry at a place, with the directories on the way to it. -/
def add (tree : FileTree) (place : Place) (entry : FileEntry) : FileTree :=
  let above := (List.range place.length).tail.map place.take
  let tree := above.foldl (fun tree place =>
    if (tree.get? place).isSome then tree else tree.put place .directory) tree
  tree.put place entry

end FileTree

end JasmineConversion
