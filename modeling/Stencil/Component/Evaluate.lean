import Stencil.Component.Element

/-!
# Evaluating component bodies

A body is evaluated in a scope, which names the arguments of the component and of the functions around
it, newest first. Children of an element are evaluated before its type, properties and other parts. A
closure keeps the scope it was made in.

A component is called with its properties: each is bound to its name, and `props` to the mapping of all.
A render function is called with an item and its index.
-/

namespace Stencil

/-- The variables that are bound, newest first. -/
abbrev Scope := List (String × Value)

namespace Value

/-- One step of a variable's path: only existing entries and positions from the front count. -/
def select? (v : Value) (s : Segment) : Option Value :=
  match v, s with
  | .map entries, _ => Mapping.get? s.toValue entries
  | .list items, .index i | .tuple items, .index i =>
    if 0 ≤ i then items[i.toNat]? else none
  | _, _ => none

/-- The value at a variable's path, or no value. -/
def select (v : Value) : Path → Value
  | [] => v
  | s :: rest =>
    match v.select? s with
    | some inner => inner.select rest
    | none => .null

end Value

namespace Body

/-- Attributes with each name once, at its first place and with its last value. -/
def attributesOf (attributes : List (String × Value)) : List (String × Value) :=
  (Mapping.ofEntries (attributes.map fun (name, v) => (.str name, v))).filterMap fun (key, v) =>
    key.text?.map fun name => (name, v)

/-- The attribute for sample data: a mapping, or pairs that make one up. -/
def samplesTrait (samples : Value) : Pass (List (String × Value)) :=
  if samples.isNull then pure []
  else do pure [("preview_props", .map (← Element.dictionary samples))]

mutual

/-- The value of a body. -/
def eval (isBuilding : Bool) (scope : Scope) : Body → Pass Value
  | .null => pure .null
  | .bool b => pure (.bool b)
  | .int i => pure (.int i)
  | .float x => pure (.float x)
  | .str s => pure (.str s)
  | .raw s => pure (.raw s)
  | .bytes s => pure (.bytes s)
  | .absent => pure .absent
  | .fragmentType => pure .fragmentType
  | .list items => do pure (.list (← evalAll isBuilding scope items))
  | .tuple items => do pure (.tuple (← evalAll isBuilding scope items))
  | .generator items => do makeGenerator (← evalAll isBuilding scope items)
  | .map entries => do pure (.map (Mapping.ofEntries (← evalEntries isBuilding scope entries)))
  | .object attributes => do
    pure (.object (attributesOf (← evalNamed isBuilding scope attributes)))
  | .element type props children => do
    let children ← evalAll isBuilding scope children
    let type ← eval isBuilding scope type
    let props ← eval isBuilding scope props
    pure (Element.make type (← Element.properties props) children)
  | .fragment children => do pure (Element.fragment (← evalAll isBuilding scope children))
  | .ifThen condition children => do
    let children ← evalAll isBuilding scope children
    pure (Element.ifThen (← eval isBuilding scope condition) children)
  | .otherwise children => do pure (Element.otherwise (← evalAll isBuilding scope children))
  | .each array children itemVar => do
    let children ← evalAll isBuilding scope children
    let array ← eval isBuilding scope array
    pure (Element.each array children (← eval isBuilding scope itemVar))
  | .val name value => do
    let name ← eval isBuilding scope name
    pure (Element.val name (← eval isBuilding scope value))
  | .provider data children => do
    let children ← evalAll isBuilding scope children
    pure (Element.provider (← eval isBuilding scope data) children)
  | .closure name body samples traits => do
    let samples ← samplesTrait (← eval isBuilding scope samples)
    pure (.closure name scope body ((← evalNamed isBuilding scope traits) ++ samples))
  | .ref name path => pure (((scope.lookup name).getD .null).select path)
  | .concat items => do
    let values ← evalAll isBuilding scope items
    pure (.str (String.ofList (values.flatMap Value.display)))
  | .whenBuilding yes no => if isBuilding then eval isBuilding scope yes else eval isBuilding scope no
  | .fail kind text => throw (.raised kind text)

/-- The values of some bodies. -/
def evalAll (isBuilding : Bool) (scope : Scope) : List Body → Pass (List Value)
  | [] => pure []
  | b :: rest => do
    let v ← eval isBuilding scope b
    pure (v :: (← evalAll isBuilding scope rest))

/-- The values of the keys and values of some entries. -/
def evalEntries (isBuilding : Bool) (scope : Scope) :
    List (Body × Body) → Pass (List (Value × Value))
  | [] => pure []
  | (key, value) :: rest => do
    let k ← eval isBuilding scope key
    let v ← eval isBuilding scope value
    k.checkKey
    pure ((k, v) :: (← evalEntries isBuilding scope rest))

/-- The values of some named bodies. -/
def evalNamed (isBuilding : Bool) (scope : Scope) :
    List (String × Body) → Pass (List (String × Value))
  | [] => pure []
  | (name, body) :: rest => do
    let v ← eval isBuilding scope body
    pure ((name, v) :: (← evalNamed isBuilding scope rest))

end

end Body

namespace Component

/-- Calls a component or render function with some arguments bound. -/
def callWith (isBuilding : Bool) (arguments : Scope) : Value → Pass Value
  | .closure _ scope body _ => body.eval isBuilding (arguments ++ scope)
  | v => throw (.notCallable v.typeName)

/-- Properties as bound variables. -/
def arguments? (props : Mapping) : Option Scope :=
  props.mapM fun (key, value) => key.text?.map fun name => (name, value)

/-- Calls a component with properties. -/
def call (isBuilding : Bool) (component : Value) (props : Mapping) : Pass Value :=
  match arguments? props with
  | some arguments => callWith isBuilding (("props", .map props) :: arguments) component
  | none => throw .argumentNoText

/-- Calls a render function with an item and its index. -/
def callItem (isBuilding : Bool) (function item : Value) (index : Nat) : Pass Value :=
  callWith isBuilding [("item", item), ("index", .int index)] function

/-- Properties with the children of an element among them. -/
def withChildren (props : Mapping) : List Value → Mapping
  | [] => props
  | [child] => props.set "children" child
  | children => props.set "children" (.list children)

/-- An attribute that is there and not no value. -/
def trait? (component : Value) (name : String) : Option Value :=
  (component.member? name).filter fun v => !v.isNull

/-- The name that a component goes by in messages. -/
def shownName (component : Value) : Text :=
  ((component.member? "__name__").getD component).inspect

/-- The sample data of a component: a mapping, or a function that returns one. -/
def samples (isBuilding : Bool) (component : Value) : Pass Mapping :=
  match (trait? component "preview_props").or (trait? component "PreviewProps") with
  | none => pure []
  | some given => do
    let v ← if given.isClosure then call isBuilding given [] else pure given
    match v with
    | .map entries => pure entries
    | v => throw (.samplesNoMapping (String.ofList (shownName component)) v.typeName)

end Component

end Stencil
