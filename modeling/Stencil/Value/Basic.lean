import Stencil.Value.Moment

/-!
# Values and component bodies

A `Value` is anything that sample data, component trees and configuration are made of: scalars, text,
lists and ordered mappings, and the nodes of a component tree among them. An element is a value too,
so that data may hold ready-made nodes and a tree may hold data.

A `Body` is an expression that makes a value: what a component or a loop's render function returns.
It refers to its arguments by name, and to what lies inside them by a path. A body is evaluated anew
on every call, and each evaluation of a `Body.generator` makes a new generator.
-/

namespace Stencil

/-- A step into a value: a name, or a position. -/
inductive Segment where
  /-- A name. -/
  | key (name : String)
  /-- A position; a negative one counts from the end. -/
  | index (i : Int)
  deriving DecidableEq, Repr

/-- The constructs that render differently in a preview and in a template. -/
inductive Helper where
  /-- A conditional region. -/
  | ifThen
  /-- The alternative region of a conditional. -/
  | otherwise
  /-- A region repeated for each item of an array. -/
  | each
  /-- A reference to a value by its path. -/
  | val
  /-- A region with a data context of its own. -/
  | provider
  deriving DecidableEq, Repr

/-- An expression that makes a value. -/
inductive Body where
  /-- No value. -/
  | null
  /-- A truth value. -/
  | bool (b : Bool)
  /-- An integer. -/
  | int (i : Int)
  /-- A floating point number. -/
  | float (x : Float)
  /-- A text. -/
  | str (s : String)
  /-- Markup that is not escaped. -/
  | raw (s : String)
  /-- Bytes, one per character. -/
  | bytes (s : String)
  /-- The answer to a path that leads nowhere. -/
  | absent
  /-- The type of fragments. -/
  | fragmentType
  /-- A list. -/
  | list (items : List Body)
  /-- A fixed list. -/
  | tuple (items : List Body)
  /-- A list that can be read once. -/
  | generator (items : List Body)
  /-- A mapping. -/
  | map (entries : List (Body × Body))
  /-- An object with attributes. -/
  | object (attributes : List (String × Body))
  /-- An element of a given type. -/
  | element (type props : Body) (children : List Body)
  /-- An element that renders only its children. -/
  | fragment (children : List Body)
  /-- A conditional region. -/
  | ifThen (condition : Body) (children : List Body)
  /-- The alternative region of a conditional. -/
  | otherwise (children : List Body)
  /-- A repeated region. -/
  | each (array : Body) (children : List Body) (itemVar : Body)
  /-- A value reference. -/
  | val (name value : Body)
  /-- A region with its own data. -/
  | provider (data : Body) (children : List Body)
  /-- A component or render function, with sample data and other attributes. -/
  | closure (name : String) (body samples : Body) (traits : List (String × Body))
  /-- A variable and a path into it. -/
  | ref (name : String) (path : List Segment)
  /-- The texts of some values, joined. -/
  | concat (items : List Body)
  /-- One of two values, by whether a template build is running. -/
  | whenBuilding (yes no : Body)
  /-- A failure of the component itself. -/
  | fail (kind text : String)

/-- A value. -/
inductive Value where
  /-- No value. -/
  | null
  /-- A truth value. -/
  | bool (b : Bool)
  /-- An integer. -/
  | int (i : Int)
  /-- A floating point number. -/
  | float (x : Float)
  /-- A text. -/
  | str (s : String)
  /-- Markup that is not escaped. -/
  | raw (s : String)
  /-- Bytes, one per character. -/
  | bytes (s : String)
  /-- The answer to a path that leads nowhere; different from no value. -/
  | absent
  /-- The type of fragments. -/
  | fragmentType
  /-- The type of a helper construct. -/
  | helper (kind : Helper)
  /-- A list. -/
  | list (items : List Value)
  /-- A fixed list. -/
  | tuple (items : List Value)
  /-- A list that can be read once; `id` tells generators apart. -/
  | generator (id : Nat) (items : List Value)
  /-- Values without an order, each at most once. -/
  | set (items : List Value)
  /-- A day. -/
  | date (d : Date)
  /-- A moment. -/
  | moment (m : Moment)
  /-- A mapping in its order, each key at most once. -/
  | map (entries : List (Value × Value))
  /-- An object with attributes. -/
  | object (attributes : List (String × Value))
  /-- A node of a component tree. -/
  | element (type : Value) (props : List (Value × Value)) (children : List Value)
  /-- A component or render function in the scope it was made in. -/
  | closure (name : String) (scope : List (String × Value)) (body : Body)
      (traits : List (String × Value))

namespace Value

/-- The items of a list or tuple. -/
def items? : Value → Option (List Value)
  | .list items => some items
  | .tuple items => some items
  | _ => none

/-- The text of a plain or raw text. -/
def text? : Value → Option String
  | .str s => some s
  | .raw s => some s
  | _ => none

/-- The entries of a mapping. -/
def entries? : Value → Option (List (Value × Value))
  | .map entries => some entries
  | _ => none

/-- Whether a value is no value. -/
def isNull : Value → Bool
  | .null => true
  | _ => false

/-- What an object has to hold under the name `__element__` to count as an element. -/
def elementMark : String := "handlebarize.element"

/-- Whether attributes are those of an element. -/
def marksElement (attributes : List (String × Value)) : Bool :=
  ((attributes.lookup "__element__").bind text?) == some elementMark

/-- Whether a value is an element: a node of a component tree, or an object that is marked as one. -/
def isElement : Value → Bool
  | .element .. => true
  | .object attributes => marksElement attributes
  | _ => false

/-- Whether a value can be called. -/
def isClosure : Value → Bool
  | .closure .. => true
  | _ => false

/-- The helper construct that a node is, if it is one. -/
def helper? : Value → Option Helper
  | .element (.helper kind) _ _ => some kind
  | _ => none

/-- Whether a value is a floating point number that is none. -/
def isNaN : Value → Bool
  | .float x => x.isNaN
  | _ => false

/-- Whether a value counts as true on its own: everything but nothing, zero, and what is empty. -/
def holds : Value → Bool
  | .null | .absent => false
  | .bool b => b
  | .int i => i != 0
  | .float x => x != 0.0
  | .str s | .raw s | .bytes s => !s.isEmpty
  | .list items | .tuple items | .set items => !items.isEmpty
  | .map entries => !entries.isEmpty
  | _ => true

/-- Truth in templates: as `holds`, but every mapping is true and a number that is none is false. -/
def isTruthy : Value → Bool
  | .map _ => true
  | .float x => !x.isNaN && x != 0.0
  | v => v.holds

end Value

end Stencil
