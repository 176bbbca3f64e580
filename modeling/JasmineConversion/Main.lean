import JasmineConversion.CommandLine.Run
import JasmineConversion.Host.Standard

/-! # The program

The files that a command line names are read, the command line is run on them, what it has changed is
written back, and its report is printed.
-/

namespace JasmineConversion.Program

open CommandLine

/-- The paths that a command names. -/
def named : Command → List Path
  | .convert request =>
    (request.input :: request.output.toList ++
      (request.arguments.value? .settingsFile).toList).map fun path => Path.parse (.ofText path)
  | _ => []

/-- The place that a string names from the root. -/
def placeOf (string : String) : Place :=
  (Path.parse (.ofString string)).parts.map FileName.encode

/-- The string that names a place from the root. -/
def stringOf (place : Place) : String :=
  Text.str ('/' :: Text.join ['/'] (place.map fun name => (FileName.decode name).escaped))

/-- The places on the way along a path from the working directory, the last one first. -/
def placesAlong (base : Place) (path : Path) : List Place :=
  path.parts.foldl (fun places part =>
    let here := places.headD []
    let name := FileName.encode part
    (if name = FileName.parent then here.dropLast else here ++ [name]) :: places)
    [if path.slashes = 0 then base else []]

/-- Adds what is at a place to a tree, and with it all that is below, if `deep`. -/
partial def readInto (deep : Bool) (tree : FileTree) (place : Place) : IO FileTree := do
  let path := (← IO.currentDir) / stringOf place
  if ← path.isDir then
    let tree := if place.isEmpty then tree else tree.add place .directory
    if deep then
      (← path.readDir).foldlM (fun tree entry =>
        readInto deep tree (place ++ [FileName.encode (.ofString entry.fileName)])) tree
    else return tree
  else if ← path.pathExists then
    return tree.add place (.file (← IO.FS.readBinFile path).toList)
  else return tree

/-- The files that a command names. -/
def readNamed (command : Command) : IO FileTree := do
  let base := placeOf (← IO.currentDir).toString
  let mut tree : FileTree := { base }
  for path in named command do
    let places := placesAlong base path
    tree ← places.tail.reverse.foldlM (readInto false) tree
    tree ← readInto true tree (places.headD base)
  return tree

/-- Writes the entries that are new or different in a tree. -/
def writeChanges (before after : FileTree) : IO Unit := do
  for (place, entry) in after.entries do
    if before.get? place ≠ some entry then
      let path := (← IO.currentDir) / stringOf place
      match entry with
      | .directory => IO.FS.createDirAll path
      | .file content => IO.FS.writeBinFile path ⟨content.toArray⟩

/-- Prints a report. -/
def print (report : Report) : IO Unit := do
  for line in report.errors do
    IO.eprintln (Text.str line)
  for line in report.output do
    IO.println (Text.str line)
  if let some failure := report.escaped then
    IO.eprintln failure.message

end JasmineConversion.Program

open JasmineConversion in
/-- Runs the command line that the program is called with. -/
def main (arguments : List String) : IO UInt32 := do
  let line := arguments.map String.toList
  let files ← match CommandLine.Command.read line with
    | some command => Program.readNamed command
    | none => pure {}
  let (report, workspace) := (CommandLine.run Host.standard line).run { files }
  Program.writeChanges files workspace.files
  Program.print report
  return report.exitCode.toUInt32
