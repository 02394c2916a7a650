import Stencil.Build.Sources
import Stencil.Compile

/-!
# Settings of a build

What a configuration says about builds and previews.
-/

namespace Stencil.Build

open Config

/-- What templates and previews have in common. -/
structure Settings where
  /-- Where components come from. -/
  sources : Sources
  /-- The names that a component can have in its module. -/
  componentNames : List String
  /-- How components are compiled. -/
  options : Template.Options

/-- The settings in a configuration. -/
def Settings.ofConfig (config : Mapping) : Except Failure Settings := do
  let options ← Template.Options.ofConfig config
  let build ← sectionOf config "build"
  let suffixes ← nonEmptyTexts build "source_suffixes" [".py"]
  let passedOver ← givenTexts build "skip_prefixes" ["_", "test_"]
  let componentNames ← nonEmptyTexts build "component_attributes" ["default", "Component"]
  pure ⟨⟨suffixes, passedOver⟩, componentNames, options⟩

/-! ### Suffixes

A suffix is only looked at when the name of a file is made with it. -/

/-- The suffix of templates. -/
def templateSuffix (config : Mapping) : Except Failure Value := do
  pure (given (← sectionOf config "build") "output_suffix" ".handlebars")

/-- The suffix of previews. -/
def previewSuffix (config : Mapping) : Except Failure Value := do
  pure (given (← sectionOf config "preview") "output_suffix" ".html")

/-- The suffix of files with data for previews. -/
def dataSuffix (config : Mapping) : Except Failure Value := do
  pure (given (← sectionOf config "preview") "data_suffix" ".json")

/-- The text of a suffix. What is no text fails as one of its characters is looked for, as its
beginning is compared, or, if there is nothing in it, as it is put behind a name. -/
def suffixText (suffix : Value) : Except Failure String :=
  match suffix.text?, suffix.parts? with
  | some s, _ => .ok s
  | none, some [] => .error (.noName suffix.typeName)
  | none, some _ => .error (.noMember suffix.typeName "startswith")
  | none, none => .error (.noContainer suffix.typeName)

/-- The location of a file with another suffix. -/
def replaceSuffix (file : Location) (suffix : Value) : Except Failure Location := do
  file.withSuffix (← suffixText suffix)

/-- A suffix that is a text is taken as it is. -/
@[simp] theorem replaceSuffix_str (file : Location) (s : String) :
    replaceSuffix file (.str s) = file.withSuffix s := rfl

end Stencil.Build
