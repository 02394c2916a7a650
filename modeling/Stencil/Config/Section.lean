import Stencil.Value.Items

/-!
# Sections of a configuration

How single settings are read. A section that is missing, empty or nothing leaves every setting as it is
by itself; one that is anything else but a mapping is a failure.
-/

namespace Stencil.Config

/-- The section of a configuration with a name. -/
def sectionOf (config : Mapping) (name : String) : Except Failure Mapping :=
  match config.getD name with
  | .map entries => .ok entries
  | v => if v.holds then .error (.noMember v.typeName "get") else .ok []

/-- The texts among the items of a value. -/
def textsOf (v : Value) : Except Failure (List String) := do
  pure ((← v.parts).filterMap Value.text?)

/-- The texts under a name, or others if there are none. -/
def nonEmptyTexts (entries : Mapping) (name : String) (fallback : List String) :
    Except Failure (List String) :=
  let v := entries.getD name
  if v.holds then textsOf v else .ok fallback

/-- The texts under a name, or others if the name is missing. -/
def givenTexts (entries : Mapping) (name : String) (fallback : List String) :
    Except Failure (List String) :=
  match entries.at? name with
  | some v => textsOf v
  | none => .ok fallback

/-- What is under a name, or a text if the name is missing. -/
def given (entries : Mapping) (name fallback : String) : Value :=
  (entries.at? name).getD (.str fallback)

/-- A section that is not there holds nothing. -/
theorem sectionOf_of_at?_eq_none {config : Mapping} {name : String} (h : config.at? name = none) :
    sectionOf config name = .ok [] := by
  simp [sectionOf, Mapping.getD, h, Value.holds]

end Stencil.Config
