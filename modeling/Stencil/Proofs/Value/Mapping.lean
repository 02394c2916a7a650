import Mathlib.Data.List.Induction
import Mathlib.Data.List.Nodup
import Mathlib.Tactic.SplitIfs
import Stencil.Render.Context
import Stencil.Value.Display

/-!
# Looking up names

A name that is put into a mapping is found there, and any other name is found as before. So, in the
data that conditions and loops of a loop look at, `this` and the name of the item are the item
(`at?_withItem`).
-/

namespace Stencil

/-! ### What comes up first -/

section First

variable {α : Type} [BEq α] [LawfulBEq α]

theorem eraseDups_concat (l : List α) (a : α) :
    (l ++ [a]).eraseDups = if l.contains a then l.eraseDups else l.eraseDups ++ [a] := by
  rw [List.eraseDups_append, List.removeAll]
  split_ifs with h
  · simp [List.contains_iff_mem.mp h]
  · have hnone : a ∉ l := fun hmem => h (List.contains_iff_mem.mpr hmem)
    simp [hnone, List.eraseDups_cons]

theorem nodup_eraseDups (l : List α) : l.eraseDups.Nodup := by
  induction l using List.reverseRecOn with
  | nil => exact List.nodup_nil
  | append_singleton l a ih =>
    rw [eraseDups_concat]
    split_ifs with h
    · exact ih
    · have hnone : a ∉ l.eraseDups := fun hmem => h (by simpa using hmem)
      rw [← List.concat_eq_append]
      exact ih.concat hnone

end First

/-! ### Keys that are names -/

namespace Value

variable {k : Value} {name : String}

/-- The keys that are the same as a name are the texts that are. -/
theorem sameKey_iff_text? : k.sameKey (.str name) = true ↔ k.text? = some name := by
  cases k <;> simp [sameKey, sameScalarKey, integerKey?, text?]

theorem display_of_text? (h : k.text? = some name) : k.display = name.toList := by
  cases k with
  | str s | raw s => simpa [text?, String.toList_inj] using h
  | _ => cases h

theorem displayString_of_text? (h : k.text? = some name) : k.displayString = name := by
  rw [displayString, display_of_text? h, String.ofList_toList]

/-- A text holds if it is not empty. -/
theorem holds_iff_of_text? (h : k.text? = some name) : k.holds = true ↔ name.toList ≠ [] := by
  cases k with
  | str s | raw s =>
    obtain rfl := Option.some.inj h
    simp [holds]
  | _ => cases h

/-- Keys that are the same as a name are shown like it. -/
theorem displayString_of_sameKey (h : k.sameKey (.str name) = true) : k.displayString = name :=
  displayString_of_text? (sameKey_iff_text?.mp h)

end Value

namespace Mapping

/-- No key is the same as two names. -/
private theorem eq_of_sameKey {k : Value} {a b : String} (ha : k.sameKey (.str a) = true)
    (hb : k.sameKey (.str b) = true) : a = b :=
  (Value.displayString_of_sameKey ha).symm.trans (Value.displayString_of_sameKey hb)

/-- What is found at a key stands behind a key that is the same. -/
theorem exists_sameKey_of_get? {key v : Value} {m : Mapping} (h : get? key m = some v) :
    ∃ k, (k, v) ∈ m ∧ k.sameKey key = true := by
  induction m with
  | nil => cases h
  | cons entry rest ih =>
    obtain ⟨k, w⟩ := entry
    rw [get?] at h
    split at h
    · next hk =>
      obtain rfl := Option.some.inj h
      exact ⟨k, List.mem_cons_self, hk⟩
    · obtain ⟨k', hmem, hk'⟩ := ih h
      exact ⟨k', List.mem_cons_of_mem _ hmem, hk'⟩

/-- What is found at a name stands behind a key that is this name. -/
theorem exists_mem_of_at? {name : String} {v : Value} {m : Mapping} (h : m.at? name = some v) :
    ∃ k, (k, v) ∈ m ∧ k.text? = some name := by
  obtain ⟨k, hmem, hk⟩ := exists_sameKey_of_get? h
  exact ⟨k, hmem, Value.sameKey_iff_text?.mp hk⟩

theorem at?_set_self (name : String) (v : Value) (m : Mapping) :
    (m.set name v).at? name = some v := by
  induction m with
  | nil => simp [set, put, at?, get?]
  | cons entry rest ih =>
    obtain ⟨k, w⟩ := entry
    rw [set, put]
    by_cases hk : k.sameKey (.str name) = true
    · simp [at?, get?, hk]
    · rw [if_neg hk, at?, get?, if_neg hk]
      exact ih

theorem at?_set_of_ne {name other : String} (h : other ≠ name) (v : Value) (m : Mapping) :
    (m.set name v).at? other = m.at? other := by
  induction m with
  | nil => simp [set, put, at?, get?, h.symm]
  | cons entry rest ih =>
    obtain ⟨k, w⟩ := entry
    rw [set, put]
    by_cases hk : k.sameKey (.str name) = true
    · have hother : ¬ k.sameKey (.str other) = true := fun ho => h (eq_of_sameKey ho hk)
      simp [at?, get?, hk, hother]
    · rw [if_neg hk, at?, get?, at?, get?]
      split
      · rfl
      · exact ih

end Mapping

namespace Render

/-- A word for the item of a loop: `this`, or the name of the item. -/
def IsItemWord (itemVar : Option String) (word : String) : Prop :=
  word = "this" ∨ itemVar = some word

/-- The name of an item as a value. -/
def nameValue : Option String → Value
  | some v => .str v
  | none => .null

private theorem withItem_none (entries : Mapping) (item : Value) :
    withItem entries (nameValue none) item = entries.set "this" item := rfl

private theorem withItem_some (entries : Mapping) {v : String} (h : v ≠ "") (item : Value) :
    withItem entries (nameValue (some v)) item = (entries.set "this" item).set v item := by
  have hv : (Value.str v).holds = true := by simpa [Value.holds] using h
  simp [withItem, nameValue, hv, Mapping.set]

theorem text?_nameValue (itemVar : Option String) : (nameValue itemVar).text? = itemVar := by
  cases itemVar <;> rfl

theorem checkKey_nameValue (itemVar : Option String) : (nameValue itemVar).checkKey = .ok () := by
  cases itemVar <;> rfl

/-- A name is compared with every path. -/
theorem checkName_nameValue {l : LoopScope} {itemVar : Option String}
    (h : l.itemVar = nameValue itemVar) (path : Text) : l.checkName path = .ok () := by
  unfold LoopScope.checkName
  rw [h]
  cases itemVar <;> simp [nameValue, Value.holds, Value.text?]

/-- The words for the item are found as the item. -/
theorem at?_withItem (entries : Mapping) {itemVar : Option String} {word : String} (item : Value)
    (h : IsItemWord itemVar word) (hvar : itemVar ≠ some "") :
    (withItem entries (nameValue itemVar) item).at? word = some item := by
  cases itemVar with
  | none =>
    obtain rfl : word = "this" := h.resolve_right (by simp)
    rw [withItem_none, Mapping.at?_set_self]
  | some v =>
    rw [withItem_some entries (fun hv => hvar (congrArg some hv))]
    by_cases hword : word = v
    · rw [hword, Mapping.at?_set_self]
    · obtain rfl : word = "this" := h.resolve_right fun hv => hword (Option.some.inj hv).symm
      rw [Mapping.at?_set_of_ne hword, Mapping.at?_set_self]

/-- Other names are found as before. -/
theorem at?_withItem_of_ne (entries : Mapping) {itemVar : Option String} {word : String}
    (item : Value) (h : ¬ IsItemWord itemVar word) :
    (withItem entries (nameValue itemVar) item).at? word = entries.at? word := by
  obtain ⟨hthis, hword⟩ := not_or.mp h
  cases itemVar with
  | none => rw [withItem_none, Mapping.at?_set_of_ne hthis]
  | some v =>
    by_cases hv : v = ""
    · subst hv
      exact Mapping.at?_set_of_ne hthis item entries
    · rw [withItem_some entries hv, Mapping.at?_set_of_ne fun hv => hword (congrArg some hv.symm),
        Mapping.at?_set_of_ne hthis]

/-- In a loop the data has the item under its words. -/
theorem scopedData_of_current {entries : Mapping} {l : LoopScope} {itemVar : Option String}
    {item : Value} (hitem : l.current = .ok item) (hne : item ≠ .absent)
    (hvar : l.itemVar = nameValue itemVar) (markers : Option Marker.Registry) :
    (⟨.map entries, some l, markers⟩ : Context).scopedData =
      .ok (.map (withItem entries (nameValue itemVar) item)) := by
  simp only [Context.scopedData, hitem, hvar, checkKey_nameValue, bind, Except.bind]
  cases item with
  | absent => exact absurd rfl hne
  | _ => split <;> rfl

end Render

end Stencil
