import Stencil.Component.Evaluate

/-!
# Component documents

A component written as a JSON document. Scalars and lists stand for themselves. An object with a key
that begins with a dollar sign is a form, named by that key; any other object is a mapping whose entries
are in the order of their keys.

| form | meaning |
| --- | --- |
| `$map` | a mapping by its entries, as pairs |
| `$float`, `$raw`, `$bytes`, `$tuple`, `$obj`, `$gen`, `$absent` | values that JSON has no form for |
| `$el` with `props`, `children` | an element; `$fragtype` is the type of fragments |
| `$frag`, `$if`, `$else`, `$each`, `$val`, `$provider` | a fragment and the helper constructs |
| `$fn` with `name` and sample data | a component or render function |
| `$ref` with `path`, `$concat`, `$isbuild`, `$raise` | expressions in the body of a function |
-/

namespace Stencil.Component

/-- The text of a value that is one, and otherwise the empty text. -/
def textOf (v : Value) : String := (v.text?).getD ""

/-- The floating point number that a text writes. -/
def floatOf (s : String) : Body :=
  match Decimal.readFloat s.toList with
  | .ok x => .float x
  | .error failure => .fail failure.code failure.message

/-- The fields of a function that become attributes as they are. -/
def traitNames : List String := ["preview_props", "PreviewProps"]

/-- The attribute of a function that is marked as a component. -/
def componentMark : String × Body := ("__handlebarize_component__", .bool true)

/-- Entries in the order of their names. -/
def sortedEntries (entries : List (String × Body)) : List (String × Body) :=
  entries.mergeSort fun a b => a.1 ≤ b.1

/-- The entries of a form that have already been read, by name. -/
abbrev Fields := List (String × Body)

/-- A field of a form, or nothing. -/
def Fields.body (fields : Fields) (name : String) : Body := (fields.lookup name).getD .null

/-- The items of a list. -/
def itemsOf : Body → List Body
  | .list items => items
  | _ => []

/-- The items of a field of a form. -/
def Fields.items (fields : Fields) (name : String) : List Body := itemsOf (fields.body name)

/-- A text in a body. -/
def stringOf : Body → String
  | .str s => s
  | _ => ""

/-- Whether a field says yes. -/
def isYes : Body → Bool
  | .bool b => b
  | _ => false

/-- A pair as an entry. -/
def entryOf : Body → Option (Body × Body)
  | .list [key, value] => some (key, value)
  | _ => none

/-- A pair as a named part. -/
def namedOf : Body → Option (String × Body)
  | .list [.str name, value] => some (name, value)
  | _ => none

/-- A pair of texts. -/
def textPairOf : Body → String × String
  | .list [.str a, .str b] => (a, b)
  | _ => ("", "")

/-- A step of a path. -/
def stepOf : Body → Segment
  | .int i => .index i
  | b => .key (stringOf b)

/-- The names of all forms. -/
def formNames : List String :=
  ["$map", "$float", "$tuple", "$absent", "$raw", "$bytes", "$obj", "$gen", "$el", "$fragtype",
    "$frag", "$if", "$else", "$each", "$val", "$provider", "$fn", "$ref", "$concat", "$isbuild",
    "$raise"]

/-- The body that a form stands for. -/
def ofForm (name : String) (fields : Fields) : Body :=
  let main := fields.body name
  match name with
  | "$map" => .map ((itemsOf main).filterMap entryOf)
  | "$float" => floatOf (stringOf main)
  | "$tuple" => .tuple (itemsOf main)
  | "$absent" => .absent
  | "$raw" => .raw (stringOf main)
  | "$bytes" => .bytes (stringOf main)
  | "$obj" => .object ((itemsOf main).filterMap namedOf)
  | "$gen" => .generator (itemsOf main)
  | "$el" => .element main (fields.body "props") (fields.items "children")
  | "$fragtype" => .fragmentType
  | "$frag" => .fragment (itemsOf main)
  | "$if" => .ifThen main (fields.items "children")
  | "$else" => .otherwise (itemsOf main)
  | "$each" => .each main (fields.items "children") (fields.body "item_var")
  | "$val" => .val main (fields.body "value")
  | "$provider" => .provider main (fields.items "children")
  | "$fn" =>
    let isMarked := (fields.lookup "preview").isSome || isYes (fields.body "decorate")
    .closure (((fields.lookup "name").map stringOf).getD "fn") main (fields.body "preview")
      ((if isMarked then [componentMark] else []) ++
        traitNames.filterMap fun name => (fields.lookup name).map fun b => (name, b))
  | "$ref" => .ref (stringOf main) ((fields.items "path").map stepOf)
  | "$concat" => .concat (itemsOf main)
  | "$isbuild" =>
    match main with
    | .list [yes, no] => .whenBuilding yes no
    | _ => .null
  | "$raise" =>
    let (kind, text) := textPairOf main
    .fail kind text
  | _ => .null

/-- The body that an object stands for. -/
def ofFields (fields : Fields) : Body :=
  match formNames.find? fun name => (fields.lookup name).isSome with
  | some name => ofForm name fields
  | none => .map ((sortedEntries fields).map fun (name, body) => (.str name, body))

mutual

/-- The body that a document writes. -/
def ofDocument : Value → Body
  | .null => .null
  | .bool b => .bool b
  | .int i => .int i
  | .float x => .float x
  | .str s => .str s
  | .list items => .list (ofDocuments items)
  | .map entries => ofFields (fieldsOf entries)
  | _ => .null

/-- The bodies that some documents write. -/
def ofDocuments : List Value → List Body
  | [] => []
  | v :: rest => ofDocument v :: ofDocuments rest

/-- The fields of an object. -/
def fieldsOf : List (Value × Value) → Fields
  | [] => []
  | (key, v) :: rest => (textOf key, ofDocument v) :: fieldsOf rest

end

end Stencil.Component
