import Stencil.Component.Document
import Stencil.Files.Tree
import Stencil.Json.Reader
import Stencil.Text.Blank
import Stencil.Text.Case

/-!
# Component modules

A component module is a file with attributes, each a name and a value. Its text is a component document
for the list of them, and the attributes are evaluated when the module is loaded. The component of a
module is the first function among some attributes, and otherwise the function that is named like the
file, with a capital at the beginning of each word.
-/

namespace Stencil.Build

/-- The suffix of files that can be loaded as modules. -/
def moduleSuffix : String := ".py"

/-- A module that has been loaded, as its attributes; the last one of a name counts. -/
abbrev Module := List (String × Value)

/-- An attribute of a module. -/
def Module.attribute? (attributes : Module) (name : String) : Option Value :=
  attributes.reverse.lookup name

/-- A character between the words of a file name. -/
def isJoint (c : Char) : Bool := c == '-' || c == '_' || c == '.' || Text.isBlank c

/-- The words of a file name, each with a capital at its beginning, in one. -/
def pascalCase (stem : Text) : Text := (Text.splitBy isJoint stem).flatMap Text.capitalize

/-! ### Loading -/

/-- A pair as an attribute. -/
def attributeOf? : Value → Option (String × Value)
  | .list [.str name, v] => some (name, v)
  | _ => none

/-- The attributes that the text of a module gives. -/
def evaluateModule (isBuilding : Bool) (t : Text) : Pass Module := do
  match Json.read t with
  | .error failure => throw failure
  | .ok document =>
    let v ← (Component.ofDocument document).eval isBuilding []
    pure (((v.items?).getD []).filterMap attributeOf?)

/-- Loads the module in a file. -/
def loadModule (isBuilding : Bool) (tree : Tree) (file : Location) : Pass Module := fun session =>
  if file.name.endsWith moduleSuffix then
    let load : Pass Module := do
      match tree.read .root file with
      | .ok t => evaluateModule isBuilding t
      | .error failure => throw failure
    match load session with
    | .ok result => .ok result
    | .error failure => .error (.brokenModule file.text failure.message)
  else .error (.unloadable file.text)

/-! ### The component -/

/-- The component of a module: names for it, in their order, and the stem of the file. -/
def component? (attributes : Module) (names : List String) (stem : String) : Option Value :=
  (names ++ [String.ofList (pascalCase stem.toList)]).findSome? fun name =>
    (attributes.attribute? name).filter Value.isClosure

/-- What is chosen as a component is a function. -/
theorem isClosure_of_component? {attributes : Module} {names : List String} {stem : String}
    {v : Value} (h : component? attributes names stem = some v) : v.isClosure = true := by
  obtain ⟨name, -, hv⟩ := List.exists_of_findSome?_eq_some h
  exact (Option.filter_eq_some_iff.1 hv).2

end Stencil.Build
