import Stencil.Config.Defaults
import Stencil.Config.Project
import Stencil.Config.Schema
import Stencil.Files.Document
import Stencil.Path

/-!
# The configuration of a project

The defaults, the file of the project and the environment are laid over each other, in this order. A
store keeps what it has loaded: later changes of the file or of the environment do not show, and only a
load that succeeds is kept. A configuration that breaks the schema is kept too, since the check against
the schema comes afterwards.
-/

namespace Stencil.Config

/-! ### Layers -/

/-- The mapping in a file of configuration; an empty file is an empty mapping. -/
def readFile (tree : Tree) (file : Location) : Except Failure Mapping :=
  match tree.readYaml .root file (.map []) true with
  | .error _ => .error (.unreadableConfig file.text)
  | .ok (.map entries) => .ok entries
  | .ok _ => .error (.configNoMapping file.text)

/-- The layer of a project, which is empty without a file. -/
def projectLayer (tree : Tree) (root : Location) : Except Failure Mapping :=
  match Project.configFile? tree root with
  | some file => readFile tree file
  | none => .ok []

/-- The three layers as one. -/
def combine (layer : Mapping) (environment : Environment) : Except Failure Mapping :=
  applyEnvironment environment (merge defaults layer)

/-- The configuration of a project. -/
def load (tree : Tree) (environment : Environment) (root : Location) : Except Failure Mapping := do
  combine (← projectLayer tree root) environment

/-- The configuration of a project, checked against the schema. -/
def loadChecked (tree : Tree) (environment : Environment) (root : Location) :
    Except Failure Mapping := do
  let config ← load tree environment root
  schema.check config
  pure config

/-- The value at a dotted key, if there is one. -/
def find? (config : Mapping) (key : String) : Except Failure (Option Value) := do
  match ← (Value.map config).lookup key.toList with
  | .absent => pure none
  | v => pure (some v)

/-! ### The store -/

/-- A place for the configuration of a project, once it is loaded. -/
structure Store where
  /-- The root of the project. -/
  root : Location
  /-- The configuration. -/
  loaded : Option Mapping := none

/-- The configuration in a store, loaded if need be. -/
def Store.fetch (tree : Tree) (environment : Environment) (store : Store) :
    Except Failure Mapping × Store :=
  match store.loaded with
  | some config => (.ok config, store)
  | none =>
    match load tree environment store.root with
    | .ok config => (.ok config, { store with loaded := some config })
    | .error failure => (.error failure, store)

/-- The checked configuration in a store. -/
def Store.fetchChecked (tree : Tree) (environment : Environment) (store : Store) :
    Except Failure Mapping × Store :=
  let (result, store) := store.fetch tree environment
  (result.bind fun config => (schema.check config).map fun _ => config, store)

/-! ### Laws -/

/-- Without a file and without variables the defaults hold. -/
theorem load_of_configFile?_eq_none {tree : Tree} {root : Location}
    (h : Project.configFile? tree root = none) : load tree [] root = .ok defaults := by
  simp [load, projectLayer, h, combine, applyEnvironment_nil, bind, Except.bind]

/-- A store that has loaded a configuration does not look at the files again. -/
theorem Store.fetch_of_loaded {tree : Tree} {environment : Environment} {store : Store}
    {config : Mapping} (h : store.loaded = some config) :
    store.fetch tree environment = (.ok config, store) := by
  simp [Store.fetch, h]

end Stencil.Config
