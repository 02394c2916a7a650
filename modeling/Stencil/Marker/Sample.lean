import Stencil.Marker.Token
import Stencil.Marker.Registry

/-!
# Sample data with markers

The copy of sample data that a component is rendered with for a template. Every scalar leaf is
replaced by the token of its path, and every list by a list of one item, which stands for all of
them: the marked copy of the first item, or of an empty mapping if there is none. Elements stay as
they are.

Each token is bound to its path on the way. A collision ends the copying, and the bindings made
before it stay.
-/

namespace Stencil.Marker

/-- Work that binds tokens and may fail, keeping what it has bound. -/
abbrev Marking := ExceptT Failure (StateM Registry)

/-- Binds a token to a path. -/
def bindToken (token path : String) : Marking Unit := fun r =>
  match r.bind token path with
  | .ok r' => (.ok (), r')
  | .error failure => (.error failure, r)

/-- The token of a leaf. -/
def markLeaf (shape : Shape) (path : String) : Marking Value := do
  bindToken (shape.token path) path
  pure (.str (shape.token path))

mutual

/-- The marked copy of the value at a path. -/
def mark (shape : Shape) (path : String) : Value → Marking Value
  | .element type props children => pure (.element type props children)
  | .object attributes =>
    if Value.marksElement attributes then pure (.object attributes) else markLeaf shape path
  | .list items | .tuple items => do
    pure (.list [← markFirst shape (Path.item path) items])
  | .map entries => do pure (.map (← markEntries shape path entries))
  | _ => markLeaf shape path

/-- The marked copy of the item that stands for all items of a list. -/
def markFirst (shape : Shape) (path : String) : List Value → Marking Value
  | [] => pure (.map [])
  | v :: _ => mark shape path v

/-- The marked copies of the entries of the mapping at a path. -/
def markEntries (shape : Shape) (path : String) : List (Value × Value) → Marking Mapping
  | [] => pure []
  | (k, v) :: rest => do
    let marked ← mark shape (Path.join path k) v
    pure ((k, marked) :: (← markEntries shape path rest))

end

end Stencil.Marker
