import Stencil.Config.Environment
import Stencil.Files.Tree

/-!
# Projects

A project is a folder, and it may hold a file of configuration. The root of the project is given by the
environment, or else it is the nearest folder above the working folder that looks like one.
-/

namespace Stencil.Project

/-- The variable of the environment that gives the root of the project. -/
def rootVariable : String := "HANDLEBARIZE_PROJECT_ROOT"

/-- The files and folders that only the root of a project holds. -/
def rootMarks : List String :=
  ["handlebarize.yaml", "handlebarize.yml", ".handlebarize", "pyproject.toml", ".git"]

/-- The places of the file of configuration below the root, the first one that is there counts. -/
def configPlaces : List Location :=
  ["handlebarize.yaml", "handlebarize.yml", ".handlebarize/config.yaml"].map Location.ofString

/-- Whether a folder looks like the root of a project. -/
def isMarked (tree : Tree) (folder : Location) : Bool :=
  rootMarks.any fun mark => tree.exists? (folder.child mark)

/-- The root of the project around a folder. -/
def nearestRoot (tree : Tree) (start : Location) : Location :=
  (start.upwards.find? (isMarked tree)).getD start

/-- The root of the project that an environment and a working folder give. -/
def root (tree : Tree) (environment : Config.Environment) (folder : Location) : Location :=
  match environment.lookup rootVariable with
  | some given =>
    if given.isEmpty then nearestRoot tree folder else folder.normal (Location.ofString given)
  | none => nearestRoot tree folder

/-- The file of configuration of a project. -/
def configFile? (tree : Tree) (root : Location) : Option Location :=
  (configPlaces.map root.locate).find? tree.isFile

/-- A folder that is marked is its own root. -/
theorem nearestRoot_of_isMarked {tree : Tree} {start : Location} (h : isMarked tree start = true) :
    nearestRoot tree start = start := by
  simp [nearestRoot, Location.upwards, List.range_succ_eq_map, h]

end Stencil.Project
