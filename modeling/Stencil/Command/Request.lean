import Stencil.Command.Words

/-!
# Requests

What can be asked of the program: templates or previews of a folder, the template for some markup, or
the configuration. `Request.read` reads a command line; an empty text stands for a missing one.
-/

namespace Stencil.Command

/-- How a configuration is shown. -/
inductive Format where
  /-- As lines of names and values. -/
  | table
  /-- As YAML. -/
  | yaml
  /-- As JSON. -/
  | json
  deriving DecidableEq, Repr

/-- What all requests have in common. -/
structure Manner where
  /-- Whether the answer is JSON. -/
  isJson : Bool
  /-- The root of the project, if it is given. -/
  root : Option String
  deriving DecidableEq, Repr

/-- What is asked for. -/
inductive Task where
  /-- The templates of a folder, in another one if it is given. -/
  | build (folder : String) (output : Option String) (isDryRun : Bool)
  /-- The previews of a folder, in another one if it is given. -/
  | preview (folder : String) (output : Option String)
  /-- The template for markup in a file, or else in the input, with a file of markers. -/
  | markup (file markers : Option String)
  /-- The configuration, or the part at a key. -/
  | showConfig (key : Option String) (format : Format)
  deriving DecidableEq, Repr

/-- A request. -/
structure Request where
  /-- What is asked for. -/
  task : Task
  /-- How. -/
  manner : Manner
  deriving DecidableEq, Repr

/-! ### Grammars -/

/-- The switch for help. -/
def helpSwitch : Switch := ⟨"help", ["-h", "--help"], .usage⟩

/-- The switches of every request. -/
def mannerSwitches : List Switch :=
  [⟨"json", ["--json"], .flag⟩, ⟨"repo-root", ["--repo-root"], .text none⟩]

/-- The grammar of the whole command line. -/
def mainGrammar : Grammar where
  switches :=
    [helpSwitch, ⟨"version", ["--version"], .version⟩, ⟨"verbose", ["--verbose", "-v"], .flag⟩]
  leadsOn := true

/-- The grammar of requests for templates. -/
def buildGrammar : Grammar where
  switches :=
    [helpSwitch, ⟨"output", ["--output", "-o"], .text none⟩,
      ⟨"dry-run", ["--dry-run", "-n"], .flag⟩] ++ mannerSwitches
  operands := [⟨"directory", true⟩]

/-- The grammar of requests for previews. -/
def previewGrammar : Grammar where
  switches := helpSwitch :: mannerSwitches
  operands := [⟨"directory", true⟩, ⟨"output", false⟩]

/-- The grammar of requests for the template of some markup. -/
def markupGrammar : Grammar where
  switches := [helpSwitch, ⟨"markers", ["--markers"], .text none⟩] ++ mannerSwitches
  operands := [⟨"file", false⟩]

/-- The grammar of requests about the configuration. -/
def configGrammar : Grammar where
  switches := [helpSwitch]
  leadsOn := true

/-- The grammar of requests to show the configuration. -/
def showGrammar : Grammar where
  switches :=
    [helpSwitch, ⟨"format", ["--format"], .text (some ["table", "yaml", "json"])⟩] ++ mannerSwitches
  operands := [⟨"key", false⟩]

/-! ### Reading -/

/-- The manner that a command line gives. -/
def mannerOf (given : Given) : Manner := ⟨given.isOn "json", given.someText? "repo-root"⟩

/-- The format that a command line gives. -/
def formatOf (given : Given) : Format :=
  if given.isOn "json" then .json
  else
    match given.text? "format" with
    | some "yaml" => .yaml
    | some "json" => .json
    | _ => .table

/-- A request, if a command line has no words too many. -/
def requestOf (outer : Given) (given : Given) (task : Task) : Except Stop Request :=
  if outer.hasSurplus || given.hasSurplus then .error .misuse else .ok ⟨task, mannerOf given⟩

/-- Reads what follows the word for requests about the configuration. -/
def readConfig (outer : Given) (line : List String) : Except Stop Request := do
  let group ← configGrammar.read line
  match group.following with
  | some ("show" :: rest) =>
    let given ← showGrammar.read rest
    let outer := { outer with hasSurplus := outer.hasSurplus || group.hasSurplus }
    requestOf outer given (.showConfig (given.someText? "key") (formatOf given))
  | some _ => throw .misuse
  | none => throw (if outer.hasSurplus || group.hasSurplus then .misuse else .usage 1)

/-- Reads a command line. -/
def Request.read (line : List String) : Except Stop Request := do
  let outer ← mainGrammar.read line
  match outer.following with
  | none => throw (if outer.hasSurplus then .misuse else .usage 0)
  | some ("build" :: rest) =>
    let given ← buildGrammar.read rest
    requestOf outer given
      (.build ((given.text? "directory").getD "") (given.someText? "output") (given.isOn "dry-run"))
  | some ("preview" :: rest) =>
    let given ← previewGrammar.read rest
    requestOf outer given
      (.preview ((given.text? "directory").getD "") (given.someText? "output"))
  | some ("rewrite" :: rest) =>
    let given ← markupGrammar.read rest
    requestOf outer given (.markup (given.someText? "file") (given.someText? "markers"))
  | some ("config" :: rest) => readConfig outer rest
  | some _ => throw .misuse

end Stencil.Command
