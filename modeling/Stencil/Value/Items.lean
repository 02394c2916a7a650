import Stencil.Failure
import Stencil.Value.Mapping

/-!
# The items of a value

What a value gives when it is read from first to last. Lists, tuples and sets give what is in them, a
mapping its keys, a text its characters, and bytes their numbers; nothing else has items.
-/

namespace Stencil.Value

/-- The items of a value, if it has any to give. A generator counts as not yet read. -/
def parts? : Value → Option (List Value)
  | .list items | .tuple items | .set items | .generator _ items => some items
  | .map entries => some (entries.map Prod.fst)
  | .str s | .raw s => some (s.toList.map fun c => .str (String.ofList [c]))
  | .bytes s => some (s.toList.map fun c => .int c.toNat)
  | _ => none

/-- The items of a value. -/
def parts (v : Value) : Except Failure (List Value) :=
  match v.parts? with
  | some items => .ok items
  | none => .error (.noSequence v.typeName)

/-- What a list gives is what is in it. -/
@[simp] theorem parts_list (items : List Value) : (Value.list items).parts = .ok items := rfl

/-- What a mapping gives is its keys. -/
@[simp] theorem parts_map (entries : Mapping) :
    (Value.map entries).parts = .ok (entries.map Prod.fst) := rfl

end Stencil.Value
