import Stencil.Condition
import Stencil.Component.Evaluate
import Stencil.Marker.Registry
import Stencil.Text.Case

/-!
# The context of a node

A node is rendered in one of two modes. A preview decides conditions, repeats loops and shows values; a
template keeps them as pseudo-tags, references and marker tokens.

The context that goes down the tree is the data, the innermost loop, and the registry of markers. Inside
a loop the name `this` and the item variable stand for the current item.
-/

namespace Stencil.Render

/-- What is rendered: a preview of the data, or markup for a template. -/
inductive Mode where
  /-- Final markup. -/
  | preview
  /-- Markup with markers and pseudo-tags. -/
  | markers
  deriving DecidableEq, Repr

/-- The name of a mode. -/
def Mode.name : Mode → String
  | preview => "preview"
  | markers => "markers"

/-- The variable of the environment that says a template build is running. -/
def modeVariable : String := "IS_HANDLEBARS_BUILD"

/-- The mode that an environment asks for. -/
def Mode.ofEnvironment (environment : List (String × String)) (name : String) : Mode :=
  let flag := (environment.lookup name).getD ""
  if Text.lower (Text.trim flag.toList) = "true".toList then .markers else .preview

/-- The innermost loop around a node. -/
structure LoopScope where
  /-- The path of the array. -/
  path : String
  /-- The array. -/
  array : Value := .absent
  /-- The position of the current item. -/
  index : Option Int := none
  /-- The name of the item, which need not be a text. -/
  itemVar : Value := .null

/-- The current item of a loop. -/
def LoopScope.current (loop : LoopScope) : Except Failure Value :=
  match loop.index with
  | some i => loop.array.itemFrom i
  | none => .ok .absent

/-- What a node is rendered in. -/
structure Context where
  /-- The data. -/
  data : Value := .null
  /-- The innermost loop. -/
  loop : Option LoopScope := none
  /-- The markers that are bound. -/
  markers : Option Marker.Registry := none

/-- A mapping with the current item under its names. -/
def withItem (entries : Mapping) (itemVar item : Value) : Mapping :=
  let named := entries.set "this" item
  if itemVar.holds then named.put itemVar item else named

/-- The data that conditions and loops of a node look at. -/
def Context.scopedData (ctx : Context) : Except Failure Value :=
  match ctx.loop, ctx.data with
  | some loop, .map entries => do
    match ← loop.current with
    | .absent => pure ctx.data
    | item =>
      if loop.itemVar.holds then loop.itemVar.checkKey
      pure (.map (withItem entries loop.itemVar item))
  | _, _ => pure ctx.data

/-! ### Paths in a loop -/

/-- A path behind a name: empty for the name itself, and nothing if it does not start there. -/
def behindName? (name path : Text) : Option Text :=
  if name.isEmpty then none
  else if path = name then some []
  else Text.after? (name ++ ['.']) path

/-- A path seen from the current item, which is the whole path if it does not start at the item. -/
def relativePath (path : Text) (itemVar : Option String) : Text :=
  let path := Text.trim path
  ((behindName? "this".toList path).or
    (itemVar.bind fun name => behindName? name.toList path)).getD path

/-- A path of an array whose loop stands around it: one that starts at the current item continues the path
of the outer array by the item that stands for all items. -/
def continuedPath (path outer : Text) (itemVar : Option String) : Text :=
  let relative := relativePath path itemVar
  if relative = Text.trim path then path
  else
    let item := outer ++ ".[0]".toList
    if relative.isEmpty then item else item ++ '.' :: relative

/-- The text of a path; what counts as nothing is an empty path. -/
def pathText (path : Value) : Except Failure Text :=
  match path.text? with
  | some s => .ok s.toList
  | none => if path.holds then .error (.noMember path.typeName "strip") else .ok []

/-- Refuses the name of an item that is no text, where a path has to be compared with it. -/
def LoopScope.checkName (loop : LoopScope) (path : Text) : Except Failure Unit :=
  if loop.itemVar.holds && loop.itemVar.text?.isNone &&
      (behindName? "this".toList (Text.trim path)).isNone then
    .error (.noJoin loop.itemVar.typeName)
  else .ok ()

/-- A path, given as a value, seen from the current item. -/
def LoopScope.relative (loop : LoopScope) (path : Value) : Except Failure Text := do
  let path ← pathText path
  loop.checkName path
  pure (relativePath path loop.itemVar.text?)

/-- The path of an array, given as a value, seen from the root. -/
def absolutePath (path : Value) (loop : Option LoopScope) : Except Failure Value :=
  match loop with
  | none => .ok path
  | some loop => do
    let _ ← loop.relative path
    match path.text? with
    | some s =>
      pure (.str (String.ofList (continuedPath s.toList loop.path.toList loop.itemVar.text?)))
    | none => throw (.noMember path.typeName "strip")

/-- Outside loops every path is as it is. -/
@[simp] theorem absolutePath_none (path : Value) : absolutePath path none = .ok path := rfl

end Stencil.Render
