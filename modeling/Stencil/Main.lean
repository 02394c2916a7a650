import Stencil.Command.Run

/-!
# The program

Runs a command line on the files of the project around the working folder, on those below the folders that
the command line names, and on single files that it names. What the run has changed is written back. All
decisions are those of `Stencil.Command.run`.
-/

namespace Stencil.Command

/-- A location as the file system knows it. -/
def diskEntry (l : Location) : IO.FS.DirEntry := ⟨⟨"/"⟩, String.intercalate "/" l.names⟩

/-- Whether a folder is not looked into. -/
def isHidden (name : String) : Bool := name.startsWith "." && name != ".handlebarize"

/-- The text file at a location, if it is one. -/
def readDisk? (l : Location) : IO (Option Entry) := do
  try
    return some (.file (← IO.FS.readFile (diskEntry l).path).toList)
  catch _ =>
    return none

/-- What stands at a location and below it. -/
partial def readBelow (l : Location) : IO (List (Route × Entry)) := do
  let place := (diskEntry l).path
  if ← place.isDir then
    let inside ←
      if isHidden l.name then pure []
      else (← place.readDir).toList.mapM fun e => readBelow (l.child e.fileName)
    return (l.names, .folder) :: inside.flatten
  else
    return ((← readDisk? l).map fun e => (l.names, e)).toList

/-- Whether something stands at a location. -/
def isOnDisk (l : Location) : IO Bool := (diskEntry l).path.pathExists

/-- The nearest of some folders that looks like the root of a project. -/
def firstMarked? (folders : List Location) : IO (Option Location) :=
  folders.findM? fun folder => Project.rootMarks.anyM fun mark => isOnDisk (folder.child mark)

/-- The texts of a command line that may name a location. -/
def namedPlaces (words : List String) : List String :=
  words.flatMap fun word => word :: ((word.splitOn "=").drop 1)

/-- The names of the variables that a run looks at. -/
def variableNames : List String :=
  [Project.rootVariable, Render.modeVariable] ++
    Config.defaults.flatMap fun (sectionName, v) =>
      v.toMapping.map fun (name, _) =>
        String.ofList Config.variablePrefix ++
          (sectionName.displayString ++ "__" ++ name.displayString).toUpper

/-- The variables that a run looks at, with their texts. -/
def readEnvironment : IO Config.Environment :=
  variableNames.filterMapM fun name => do
    return (← IO.getEnv name).map fun text => (name, text)

/-- The rest of the input. -/
partial def readInput (input : IO.FS.Stream) (before : String) : IO String := do
  let next ← input.getLine
  if next.isEmpty then return before else readInput input (before ++ next)

/-- Whether a request reads the input. -/
def readsInput (words : List String) : Bool :=
  match Request.read words with
  | .ok ⟨.markup none _, _⟩ => true
  | _ => false

/-- The workspace of a run. -/
def readWorkspace (words : List String) : IO Workspace := do
  let folder := Location.ofString (← IO.currentDir).toString
  let environment ← readEnvironment
  let named := (environment.lookup Project.rootVariable).toList ++ namedPlaces words
  let root ← firstMarked? folder.upwards
  let places := root.getD folder :: named.map fun s => folder.normal (.ofString s)
  let entries ← places.mapM readBelow
  let tree := entries.flatten.foldl (fun tree (route, e) => tree.put route e) {}
  let input ← if readsInput words then readInput (← IO.getStdin) "" else pure ""
  return ⟨tree, folder, environment, input.toList⟩

/-- Writes what has changed. -/
def writeChanges (before after : Tree) : IO Unit :=
  (before.changes after).forM fun (route, text) => do
    IO.FS.createDirAll (diskEntry ⟨true, route.dropLast⟩).path
    IO.FS.writeFile (diskEntry ⟨true, route⟩).path (String.ofList text)

end Stencil.Command

/-- Runs the program. -/
def main (words : List String) : IO UInt32 := do
  let workspace ← Stencil.Command.readWorkspace words
  match Stencil.Command.run workspace words with
  | .ok reply =>
    Stencil.Command.writeChanges workspace.tree reply.tree
    IO.print (String.ofList reply.output)
    IO.eprint (String.ofList reply.errors)
    return reply.code.toUInt32
  | .error failure =>
    IO.eprintln (failure.code ++ ": " ++ failure.message)
    return 1
