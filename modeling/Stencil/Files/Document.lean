import Stencil.Files.Tree
import Stencil.Json.Reader
import Stencil.Yaml.Reader

/-!
# Documents in files

Files that hold a JSON or YAML document. Another value can stand in for a file that is missing; for YAML it
also stands in for an empty document and, unless the reading is strict, for one that is malformed. A document
that is well formed but holds a value that there is not is always a failure.
-/

namespace Stencil.Tree

/-- What is read, unless something else has to stand in for it. -/
def orFallback (fallback : Value) (isStrict : Bool) (result : Except Failure Value) :
    Except Failure Value :=
  match result with
  | .ok .null => .ok fallback
  | .error .malformedYaml => if isStrict then result else .ok fallback
  | _ => result

/-- The YAML document in a file, which failures show as its location is given. -/
def readYaml (tree : Tree) (folder l : Location) (fallback : Value) (isStrict : Bool) :
    Except Failure Value :=
  match tree.read folder l with
  | .ok t => orFallback fallback isStrict (Yaml.read t)
  | .error failure => if isStrict then .error failure else .ok fallback

/-- The JSON document in a file, which failures show as its location is given. -/
def readJson (tree : Tree) (folder l : Location) (fallback : Option Value) : Except Failure Value :=
  match tree.read folder l, fallback with
  | .ok t, _ => Json.read t
  | .error _, some v => .ok v
  | .error failure, none => .error failure

/-- Unless it is strict, the reading of a file that is missing succeeds. -/
theorem readYaml_of_read_eq_error {tree : Tree} {folder l : Location} {failure : Failure}
    (fallback : Value) (h : tree.read folder l = .error failure) :
    tree.readYaml folder l fallback false = .ok fallback := by
  simp [readYaml, h]

/-- Unless it is strict, no reading finds a document malformed. -/
theorem readYaml_ne_malformedYaml (tree : Tree) (folder l : Location) (fallback : Value) :
    tree.readYaml folder l fallback false ≠ .error .malformedYaml := by
  unfold readYaml
  split
  · unfold orFallback
    split <;> simp_all
  · simp

end Stencil.Tree
