import Stencil.Command.Workspace
import Stencil.Yaml.Writer

/-!
# Requests to show the configuration

The configuration, or the value at a dotted key of it, is shown as lines of names and values, as YAML or
as JSON. In YAML a value stands below the parts of its key, in JSON below the key as a whole.
-/

namespace Stencil.Command

/-- A value on one line. -/
def valueText : Value → Text
  | .list items => '[' :: Text.joinWith [',', ' '] (items.map Value.display) ++ [']']
  | v => v.display

/-- A text behind two spaces for each step of a depth. -/
def indented (depth : Nat) (t : Text) : Text := List.replicate (2 * depth) ' ' ++ t

/-- The lines of the entries of a mapping at a depth. -/
def entryLines (depth : Nat) : List (Value × Value) → List Text
  | [] => []
  | (name, .map entries) :: rest =>
    indented depth (name.display ++ [':']) ::
      (entryLines (depth + 1) entries ++ entryLines depth rest)
  | (name, v) :: rest =>
    indented depth (name.display ++ [':', ' '] ++ valueText v) :: entryLines depth rest

/-- The lines of a value at a depth. -/
def valueLines (depth : Nat) : Value → List Text
  | .map entries => entryLines depth entries
  | v => [indented depth (valueText v)]

/-- Lines in one text; without any, an empty line. -/
def block (lines : List Text) : Text := line (Text.joinWith ['\n'] lines)

/-- The value at a key as a table. -/
def keyTable (key : String) (v : Value) : Text := line (key.toList ++ [':']) ++ block (valueLines 1 v)

/-- A section as a table. -/
def sectionTable (name v : Value) : Text :=
  line ('[' :: name.display ++ [']']) ++ block (valueLines 1 v) ++ line []

/-- A configuration as a table, section by section. -/
def configTable (config : Mapping) : Text :=
  (config.mergeSort fun a b => a.1.displayString ≤ b.1.displayString).flatMap fun (name, v) =>
    sectionTable name v

/-- A value below the parts of its key. -/
def nested (key : String) (v : Value) : Value :=
  let parts := (Text.splitBy (· == '.') key.toList).filter fun part => !part.isEmpty
  parts.foldr (fun part inner => .map [(.str (String.ofList part), inner)]) v

/-- A value as YAML. -/
def yamlText (v : Value) : Text := line (Text.trimRight (Yaml.write v))

/-- The value at a key, shown in a format. -/
def keyText (format : Format) (key : String) (v : Value) : Text :=
  match format with
  | .json => jsonText (named [(key, v)])
  | .yaml => yamlText (nested key v)
  | .table => keyTable key v

/-- A configuration, shown in a format. -/
def configText (format : Format) (config : Mapping) : Text :=
  match format with
  | .json => jsonText (.map config)
  | .yaml => yamlText (.map config)
  | .table => configTable config

/-- Shows the configuration, or the value at a key. -/
def showConfig (w : Workspace) (manner : Manner) (key : Option String) (format : Format) :
    Except Failure Reply :=
  match w.config manner with
  | .error failure =>
    settle Failure.isOwn manner "config_show_error" (Job.ofResult (.error failure)) w.tree
  | .ok config =>
    match key with
    | none => .ok ⟨0, configText format config, [], w.tree⟩
    | some key =>
      match Config.find? config key with
      | .error failure => .error failure
      | .ok (some v) => .ok ⟨0, keyText format key v, [], w.tree⟩
      | .ok none =>
        .ok ⟨1, [], errorText manner.isJson "key_not_found" ("Key not found: " ++ key) [], w.tree⟩

end Stencil.Command
