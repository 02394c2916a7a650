import Stencil.Component.Session
import Stencil.Path
import Stencil.Value.Items

/-!
# Elements and their children

How elements are put together, and how their children are read: nested lists, tuples and generators of
children are one flat sequence, in which nothing and truth values count for nothing.

The properties of an element are a mapping, or pairs that make one up. Reading items and pairs from a value
takes what is left of a generator.
-/

namespace Stencil.Element

/-! ### Making elements -/

/-- The children that a property gives. -/
def propertyChildren : Value → List Value
  | .null => []
  | .list items | .tuple items => items
  | v => [v]

/-- An element. Children given directly win over those given as a property. -/
def make (type : Value) (props : Mapping) (children : List Value) : Value :=
  .element type (props.erase "children")
    (if children.isEmpty then propertyChildren (props.getD "children") else children)

/-- An element that renders only its children. -/
def fragment (children : List Value) : Value := .element .fragmentType [] children

/-- A conditional region. -/
def ifThen (condition : Value) (children : List Value) : Value :=
  .element (.helper .ifThen) [(.str "condition", condition)] children

/-- The alternative region of a conditional. -/
def otherwise (children : List Value) : Value := .element (.helper .otherwise) [] children

/-- A region repeated for each item of an array. -/
def each (array : Value) (children : List Value) (itemVar : Value) : Value :=
  .element (.helper .each) [(.str "array", array), (.str "item_var", itemVar)] children

/-- A reference to a value by its path. -/
def val (name value : Value) : Value :=
  .element (.helper .val) [(.str "name", name), (.str "value", value)] []

/-- A region with a data context of its own. -/
def provider (data : Value) (children : List Value) : Value :=
  .element (.helper .provider) [(.str "data", data)] children

/-! ### Reading items and pairs -/

/-- What is left of a generator from a position on. -/
def drawRest (id position : Nat) : List Value → Pass (List Value)
  | [] => pure []
  | v :: rest => do
    let here := if ← drawItem id position then [v] else []
    pure (here ++ (← drawRest id (position + 1) rest))

/-- The items of a value; those of a generator are what is left of it. -/
def iterate : Value → Pass (List Value)
  | .generator id items => drawRest id 0 items
  | v => v.parts

/-- The pair that the item at a position stands for. -/
def pairAt (position : Nat) (item : Value) : Pass (Value × Value) := fun session =>
  match iterate item session with
  | .ok ([key, value], session) => .ok ((key, value), session)
  | .ok (items, _) => .error (.noPair position items.length)
  | .error _ => .error (.noEntryItems position)

/-- A mapping with the pairs from a position on put in. -/
def putPairs (m : Mapping) (position : Nat) : List Value → Pass Mapping
  | [] => pure m
  | item :: rest => do
    let (key, value) ← pairAt position item
    key.checkKey
    putPairs (m.put key value) (position + 1) rest

/-- The mapping that a value is, or that its items make up as pairs. -/
def dictionary : Value → Pass Mapping
  | .map entries => pure entries
  | v => do putPairs [] 0 (← iterate v)

/-- The mapping of properties; what counts as nothing gives none. -/
def properties (v : Value) : Pass Mapping := if v.holds then dictionary v else pure []

/-! ### Reading children -/

mutual

/-- The flat sequence of some children. -/
def flatten : List Value → Pass (List Value)
  | [] => pure []
  | v :: rest => do
    let here ← flattenOne v
    pure (here ++ (← flatten rest))

/-- What one child contributes. -/
def flattenOne : Value → Pass (List Value)
  | .null | .bool _ => pure []
  | .list items | .tuple items => flatten items
  | .generator id items => flattenFrom id 0 items
  | v => pure [v]

/-- What is left of a generator from a position on. -/
def flattenFrom (id position : Nat) : List Value → Pass (List Value)
  | [] => pure []
  | v :: rest => do
    let here ← if ← drawItem id position then flattenOne v else pure []
    pure (here ++ (← flattenFrom id (position + 1) rest))

end

/-- The flat sequence of the items of a value. -/
def flattenWithin (v : Value) : Pass (List Value) := do flatten (← iterate v)

/-- The flat children before the first alternative region, that region, and those behind it. -/
def splitElse : List Value → List Value × Option Value × List Value
  | [] => ([], none, [])
  | v :: rest =>
    if v.helper? = some .otherwise then ([], some v, rest)
    else
      let (before, region, after) := splitElse rest
      (v :: before, region, after)

/-- Children without an alternative region are all before it. -/
theorem splitElse_of_forall {children : List Value}
    (h : ∀ v ∈ children, v.helper? ≠ some .otherwise) :
    splitElse children = (children, none, []) := by
  induction children with
  | nil => rfl
  | cons v rest ih =>
    simp [splitElse, h v (by simp), ih fun w hw => h w (by simp [hw])]

end Stencil.Element
