import Stencil.Value.Items

/-!
# Laying one configuration over another

Two layers of configuration become one, entry by entry. Where both hold a mapping, the mappings are
merged in turn; where both hold a list, the upper list replaces the lower one, or is added to it when
its first item is a plus sign; everything else is replaced. Keys keep the place they have in the lower
layer, and new ones follow.
-/

namespace Stencil.Config

/-- The item at the front of a list that asks for the others to be added. -/
def isPlus (v : Value) : Bool := v.text? == some "+"

/-- A list laid over another. -/
def mergeLists (base : List Value) : List Value → List Value
  | [] => []
  | first :: rest => if isPlus first then base ++ rest else first :: rest

mutual

/-- A value laid over what is there. -/
def mergeValue (current : Option Value) : Value → Value
  | .map entries =>
    match current with
    | some (.map base) => .map (merge base entries)
    | _ => .map entries
  | .list items =>
    match current with
    | some (.list base) => .list (mergeLists base items)
    | _ => .list items
  | v => v

/-- A mapping laid over another. -/
def merge (base : Mapping) : List (Value × Value) → Mapping
  | [] => base
  | (key, v) :: rest => merge (base.put key (mergeValue (base.get? key) v)) rest

end

/-- A layer laid over a mapping, where anything empty counts as an empty layer. -/
def mergeLayer (base : Mapping) (layer : Value) : Except Failure Mapping :=
  match layer with
  | .map entries => .ok (merge base entries)
  | v => if v.holds then .error (.noMember v.typeName "items") else .ok base

/-- The items of a value that is asked for them by position, as a list to be laid over another. -/
def layerItems (layer : Value) : Except Failure (List Value) :=
  match layer with
  | .list _ | .tuple _ | .str _ | .raw _ | .bytes _ => layer.parts
  | .map entries =>
    match Mapping.get? (.int 0) entries with
    | some first => if isPlus first then .error (.noKey "slice") else layer.parts
    | none => if entries.isEmpty then .ok [] else .error (.raised "KeyError" "0")
  | v => if v.holds then .error (.noPositions v.typeName) else v.parts

/-- A list laid over another, as values. What it is laid over is only looked at when it is added to. -/
def mergeListLayer (base layer : Value) : Except Failure (List Value) := do
  match ← layerItems layer with
  | [] => pure []
  | first :: rest =>
    if isPlus first then
      match base.parts? with
      | some items => pure (items ++ rest)
      | none => throw (.noSpread base.typeName)
    else pure (first :: rest)

@[simp] theorem merge_nil (base : Mapping) : merge base [] = base := rfl

/-- A list without a plus sign in front replaces. -/
theorem mergeLists_of_not_isPlus (base : List Value) {first : Value} (rest : List Value)
    (h : isPlus first = false) : mergeLists base (first :: rest) = first :: rest := by
  simp [mergeLists, h]

/-- A list with a plus sign in front is added. -/
theorem mergeLists_of_isPlus (base : List Value) {first : Value} (rest : List Value)
    (h : isPlus first = true) : mergeLists base (first :: rest) = base ++ rest := by
  simp [mergeLists, h]

/-- Lists given as values are laid over each other as lists. -/
theorem mergeListLayer_list (base layer : List Value) :
    mergeListLayer (.list base) (.list layer) = .ok (mergeLists base layer) := by
  rcases layer with _ | ⟨first, rest⟩
  · rfl
  · cases h : isPlus first <;>
      simp [mergeListLayer, layerItems, mergeLists, h, Value.parts?, bind, Except.bind, pure,
        Except.pure]

end Stencil.Config
