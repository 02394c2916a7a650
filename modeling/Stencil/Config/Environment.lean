import Stencil.Config.Merge
import Stencil.Decimal.Literal
import Stencil.Json.Reader
import Stencil.Text.Blank
import Stencil.Text.Case

/-!
# Configuration from the environment

A variable whose name begins with `HANDLEBARIZE_` sets one key of the configuration: the rest of the
name, in lower case, is the path of the key, with two underscores between its parts. Its text is read as
a truth value, an integer, a decimal fraction, a JSON list or object, or else as text.

Variables are taken in the order of their names. A value is put at its path as it is; what is in the way
of the path and is no mapping makes room for one.
-/

namespace Stencil.Config

/-- The variables of an environment. -/
abbrev Environment := List (String × String)

/-- What the names of variables for configuration begin with. -/
def variablePrefix : Text := "HANDLEBARIZE_".toList

/-- The rest of the name of the variable that gives the root of the project. -/
def projectRootName : Text := "PROJECT_ROOT".toList

/-! ### Values -/

/-- The integer of a text that has the form of one: digits with an optional sign, and white space around
them. Not all of that white space may stand around a number. -/
def readInteger? (t : Text) : Option (Except Failure Value) :=
  (Decimal.readInt? (Text.trim t)).map fun _ => (Decimal.readInteger 10 t).map .int

/-- Whether a text is a decimal fraction without exponent: an optional sign and digits around a point. -/
def isFraction (t : Text) : Bool :=
  let body := (Decimal.signed t).2
  let whole := body.takeWhile Text.isDigit
  match body.drop whole.length with
  | '.' :: decimals => decimals.all Text.isDigit && !(whole.isEmpty && decimals.isEmpty)
  | _ => false

/-- Whether a text begins and ends like a JSON list or object. -/
def isBracketed (t : Text) : Bool :=
  match t.head?, t.getLast? with
  | some '[', some ']' => true
  | some '\x7b', some '\x7d' => true
  | _, _ => false

/-- The list or object that a trimmed text writes. -/
def readContainer? (t : Text) : Option Value :=
  if isBracketed t then (Json.read t).toOption else none

/-- The value that the text of a variable stands for. -/
def coerce (t : Text) : Except Failure Value :=
  let trimmed := Text.trim t
  let lowered := Text.lower trimmed
  if lowered = "true".toList then .ok (.bool true)
  else if lowered = "false".toList then .ok (.bool false)
  else
    match readInteger? t with
    | some result => result
    | none =>
      if isFraction trimmed then .ok (.float ((Decimal.readFraction? trimmed).getD 0.0))
      else .ok ((readContainer? trimmed).getD (.str (String.ofList trimmed)))

/-! ### Paths -/

/-- A value for the key at a path of names. -/
structure Override where
  /-- The path. -/
  path : List String
  /-- The value. -/
  value : Value

/-- The override that a variable makes: none, unless its name has the beginning of all of them. -/
def overrideOf (name text : String) : Except Failure (Option Override) :=
  match Text.after? variablePrefix name.toList with
  | none => .ok none
  | some rest =>
    if rest = projectRootName then .ok none
    else
      let parts := Text.splitAt ['_', '_'] rest
      if parts.any (·.isEmpty) then .error (.malformedVariable name)
      else do
        let value ← coerce text.toList
        pure (some ⟨parts.map fun part => String.ofList (Text.lower part), value⟩)

/-- The variables in the order of their names. -/
def sortedVariables (environment : Environment) : Environment :=
  environment.mergeSort fun a b => a.1 ≤ b.1

/-- The overrides of an environment, in the order in which they take effect. -/
def overrides (environment : Environment) : Except Failure (List Override) := do
  let all ← (sortedVariables environment).mapM fun (name, text) => overrideOf name text
  pure (all.filterMap id)

/-- A mapping with a value at a path of names. -/
def assign (value : Value) : List String → Mapping → Mapping
  | [], m => m
  | [name], m => m.set name value
  | name :: rest, m =>
    m.set name (.map (assign value rest (((m.at? name).bind Value.entries?).getD [])))

/-- A configuration with one override. -/
def applyOverride (config : Mapping) (o : Override) : Mapping := assign o.value o.path config

/-- A configuration with the overrides of an environment. -/
def applyEnvironment (environment : Environment) (config : Mapping) : Except Failure Mapping := do
  pure ((← overrides environment).foldl applyOverride config)

/-- A path of one name sets an entry. -/
@[simp] theorem assign_singleton (value : Value) (name : String) (m : Mapping) :
    assign value [name] m = m.set name value := rfl

/-- Without variables nothing changes. -/
theorem applyEnvironment_nil (config : Mapping) : applyEnvironment [] config = .ok config := by
  simp [applyEnvironment, overrides, sortedVariables, bind, Except.bind, pure, Except.pure]

end Stencil.Config
