import Stencil.Compile
import Stencil.Proofs.Marker.Sample

/-!
# Sample values and templates

A template is to depend on the shape of the sample data only. `Marker.Alike` says when two values have
the same shape: mappings have the same keys in the same order, lists and tuples are compared by their
first items, which stand for all others, elements are the same, and everything else has no shape of
its own.

The main statement is `template_of_alike`: **alike samples have the same marked copy, with the same
bindings in the same order or the same collision, and compile to the same result.** So no scalar of
the sample data can leak into a template, whatever the component makes of it.
-/

namespace Stencil

namespace Marker

/-! ### Shapes -/

mutual

/-- Values of the same shape. -/
inductive Alike : Value → Value → Prop
  | leaf {v w : Value} (left : isLeaf v = true) (right : isLeaf w = true) : Alike v w
  | element {v : Value} (same : v.isElement = true) : Alike v v
  | list {v w : Value} {vs ws : List Value} (left : v.items? = some vs) (right : w.items? = some ws)
      (first : Alike (standIn vs) (standIn ws)) : Alike v w
  | map {sample other : Mapping} (entries : AlikeEntries sample other) :
      Alike (.map sample) (.map other)

/-- Mappings with the same keys in the same order, at which they have values of the same shape. -/
inductive AlikeEntries : Mapping → Mapping → Prop
  | nil : AlikeEntries [] []
  | cons {k v w : Value} {sample other : Mapping} (value : Alike v w)
      (rest : AlikeEntries sample other) : AlikeEntries ((k, v) :: sample) ((k, w) :: other)

end

mutual

/-- Every value has the same shape as itself. -/
theorem Alike.refl : (v : Value) → Alike v v
  | .list [] | .tuple [] => .list rfl rfl (.map .nil)
  | .list (item :: _) | .tuple (item :: _) => .list rfl rfl (Alike.refl item)
  | .map entries => .map (AlikeEntries.refl entries)
  | .element _ _ _ => .element rfl
  | .object attributes => by
    cases hmarks : Value.marksElement attributes with
    | true => exact .element hmarks
    | false => exact .leaf (by simp [isLeaf, hmarks]) (by simp [isLeaf, hmarks])
  | .null | .absent | .bool _ | .int _ | .float _ | .str _ | .raw _ | .bytes _ | .date _ | .moment _
  | .set _ | .generator _ _ | .closure _ _ _ _ | .fragmentType | .helper _ => .leaf rfl rfl

theorem AlikeEntries.refl : (entries : List (Value × Value)) → AlikeEntries entries entries
  | [] => .nil
  | (_, v) :: rest => .cons (Alike.refl v) (AlikeEntries.refl rest)

end

/-! ### Marking -/

mutual

/-- Values of the same shape have the same marked copy, or fail to have one in the same way. -/
theorem mark_of_alike (shape : Shape) (path : String) {v w : Value} (h : Alike v w) :
    mark shape path v = mark shape path w :=
  match h with
  | .leaf left right => by rw [mark_of_isLeaf left, mark_of_isLeaf right]
  | .element _ => rfl
  | .list left right first => by
    rw [mark_of_items? left, mark_of_items? right, mark_of_alike shape _ first]
  | .map entries => by rw [mark, mark, markEntries_of_alike shape path entries]

theorem markEntries_of_alike (shape : Shape) (path : String) {sample other : Mapping}
    (h : AlikeEntries sample other) :
    markEntries shape path sample = markEntries shape path other :=
  match h with
  | .nil => rfl
  | .cons value rest => by
    rw [markEntries, markEntries, mark_of_alike shape _ value, markEntries_of_alike shape path rest]

end

end Marker

namespace Compile

open Marker

/-! ### Compiling -/

/-- Sample data that is given as a mapping is taken as it is. -/
theorem sampleFor_map (isBuilding : Bool) (component : Value) (sample : Mapping) (session : Session) :
    sampleFor isBuilding component (.map sample) session = .ok (sample, session) := by
  cases sample <;> rfl

/-- **Samples of the same shape** are marked alike, whatever is bound already, and a component compiles
to the same result with either. -/
theorem template_of_alike {sample other : Value} (h : Alike sample other) :
    (∀ shape path registry, mark shape path sample registry = mark shape path other registry) ∧
      ∀ entries, sample = .map entries → ∀ options isBuilding component source session,
        Compile.template options isBuilding component sample source session =
          Compile.template options isBuilding component other source session := by
  refine ⟨fun shape path registry => by rw [mark_of_alike shape path h], ?_⟩
  rintro entries rfl options isBuilding component source session
  cases h with
  | leaf left right => simp [isLeaf] at left
  | element same => rfl
  | list left right first => simp [Value.items?] at left
  | @map _ others hentries =>
    have hprops : markedProps options.shape entries = markedProps options.shape others := by
      rw [markedProps, markedProps, markEntries_of_alike options.shape "" hentries]
    have hmarkers : renderMarkers options isBuilding component entries =
        renderMarkers options isBuilding component others := by
      rw [renderMarkers, renderMarkers, hprops]
    rw [Compile.template, Compile.template]
    simp only [bind, StateT.bind, Except.bind, sampleFor_map, hmarkers]

/-- Data of a user and what was ordered. -/
def order (name : String) (vip : Bool) (items : Value) : Value :=
  .map [(.str "user", .map [(.str "name", .str name), (.str "vip", .bool vip)]), (.str "items", items)]

/-- An item that was ordered. -/
def orderedItem (sku : String) (quantity : Int) : Value :=
  .map [(.str "sku", .str sku), (.str "quantity", .int quantity)]

/-- A component that shows the name of the user. -/
def greeting : Value :=
  .closure "Greeting" [] (.element (.str "p") (.map []) [.ref "user" [.key "name"]]) []

/-- A user who ordered two items. -/
def anOrder : Value := order "Ada" true (.list [orderedItem "A1" 1, .null])

/-- Another user, who ordered one. -/
def anotherOrder : Value := order "Bob" false (.tuple [orderedItem "Z" 9])

/-- Who the user is and what was ordered makes no difference. -/
theorem template_orders :
    mark {} "" anOrder {} = mark {} "" anotherOrder {} ∧
      Compile.template {} false greeting anOrder none {} =
        Compile.template {} false greeting anotherOrder none {} := by
  have hitem : Alike (orderedItem "A1" 1) (orderedItem "Z" 9) :=
    .map (.cons (.leaf rfl rfl) (.cons (.leaf rfl rfl) .nil))
  have halike : Alike anOrder anotherOrder :=
    .map (.cons (.map (.cons (.leaf rfl rfl) (.cons (.leaf rfl rfl) .nil)))
      (.cons (.list rfl rfl hitem) .nil))
  obtain ⟨hmark, htemplate⟩ := template_of_alike halike
  exact ⟨hmark {} "" {}, htemplate _ rfl {} false greeting none {}⟩

end Compile

end Stencil
