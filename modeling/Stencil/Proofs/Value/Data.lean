import Mathlib.Tactic.SplitIfs
import Stencil.Path
import Stencil.Render.Tree

/-!
# Data

`Value.IsData` are the values that data is made of: no nodes of a component tree, no functions, and no
lists that can be read only once. Following a path in data leads to data or nowhere
(`isData_follow`), and data renders the same wherever it stands (`renderNode_of_isData`).
-/

namespace Stencil

namespace Value

/-- Data: scalars, texts, and lists, mappings and objects of data. -/
inductive IsData : Value → Prop
  | null : IsData .null
  | bool (b : Bool) : IsData (.bool b)
  | int (i : Int) : IsData (.int i)
  | float (x : Float) : IsData (.float x)
  | str (s : String) : IsData (.str s)
  | raw (s : String) : IsData (.raw s)
  | bytes (s : String) : IsData (.bytes s)
  | date (d : Date) : IsData (.date d)
  | moment (m : Moment) : IsData (.moment m)
  | set (items : List Value) : IsData (.set items)
  | list (items : List Value) (isData : ∀ v ∈ items, IsData v) : IsData (.list items)
  | tuple (items : List Value) (isData : ∀ v ∈ items, IsData v) : IsData (.tuple items)
  | map (entries : Mapping) (isData : ∀ entry ∈ entries, IsData entry.2) : IsData (.map entries)
  | object (attributes : List (String × Value)) (isData : ∀ entry ∈ attributes, IsData entry.2)
      (unmarked : marksElement attributes = false) : IsData (.object attributes)

attribute [simp] IsData.null IsData.bool IsData.int IsData.float IsData.str

@[simp] theorem isData_list {items : List Value} :
    (Value.list items).IsData ↔ ∀ v ∈ items, v.IsData :=
  ⟨fun h => by cases h with | list _ isData => exact isData, .list items⟩

@[simp] theorem isData_map {entries : Mapping} :
    (Value.map entries).IsData ↔ ∀ entry ∈ entries, entry.2.IsData :=
  ⟨fun h => by cases h with | map _ isData => exact isData, .map entries⟩

/-- Data, or the answer to a path that leads nowhere. -/
def IsAnswer (v : Value) : Prop := v.IsData ∨ v = .absent

variable {v : Value}

/-- Data is there. -/
theorem IsData.ne_absent (h : v.IsData) : v ≠ .absent := by
  rintro rfl
  cases h

/-- An answer that is not nothing is data. -/
theorem IsAnswer.isData (h : v.IsAnswer) (hv : v.isNothing = false) : v.IsData := by
  refine h.resolve_right ?_
  rintro rfl
  cases hv

/-- The items of data are data. -/
theorem IsData.items (h : v.IsData) {items : List Value} (hitems : v.items? = some items) :
    ∀ item ∈ items, item.IsData := by
  cases h with
  | list own isData | tuple own isData =>
    obtain rfl : own = items := Option.some.inj hitems
    exact isData
  | _ => cases hitems

/-- The item at a position of data is an answer. -/
private theorem isAnswer_itemAt {items : List Value} (h : ∀ v ∈ items, v.IsData) (i : Int) :
    (itemAt items i).IsAnswer := by
  have hget : ∀ n, (items.getD n .absent).IsAnswer := by
    intro n
    rw [List.getD_eq_getElem?_getD]
    cases hn : items[n]? with
    | none => exact .inr rfl
    | some v => exact .inl (h v (List.mem_of_getElem? hn))
  unfold itemAt
  split_ifs
  · exact hget _
  · exact hget _
  · exact .inr rfl

/-- The entry of data at a step is an answer. -/
private theorem isAnswer_entryAt {entries : Mapping} (h : ∀ entry ∈ entries, IsData entry.2)
    (s : Segment) : (entryAt entries s).IsAnswer := by
  have hget : ∀ {key v}, Mapping.get? key entries = some v → v.IsData := fun hv => by
    obtain ⟨k, hk⟩ := Mapping.exists_mem_of_get? hv
    exact h _ hk
  unfold entryAt
  split
  · next hv => exact .inl (hget hv)
  · split
    · exact .inr rfl
    · next i _ =>
      cases hv : Mapping.at? (String.ofList (Decimal.intText i)) entries with
      | none => exact .inr rfl
      | some v => exact .inl (hget hv)

/-- So is a member of data. -/
private theorem isAnswer_member (h : v.IsData) (name : String) : (v.member name).IsAnswer := by
  have hlookup : ∀ parts : List (String × Nat),
      (((parts.lookup name).map fun n => Value.int n).getD .absent).IsAnswer := by
    intro parts
    cases parts.lookup name with
    | none => exact .inr rfl
    | some n => exact .inl (.int n)
  cases h with
  | object attributes isData =>
    rw [member, member?]
    cases hv : attributes.lookup name with
    | none => exact .inr rfl
    | some v =>
      obtain ⟨before, after, rfl, -⟩ := List.lookup_eq_some_iff.mp hv
      exact .inl (isData (name, v) (by simp))
  | date d => exact hlookup d.parts
  | moment m =>
    rw [member, member?]
    split
    · exact .inl .null
    · exact hlookup m.parts
  | _ => exact .inr rfl

/-- A step into data leads to data or nowhere. -/
theorem isAnswer_step (h : v.IsData) (s : Segment) : (v.step s).IsAnswer := by
  have hmember := isAnswer_member h
  cases h with
  | map entries isData => exact isAnswer_entryAt isData s
  | list items isData | tuple items isData =>
    cases s with
    | key name => exact .inr rfl
    | index i => exact isAnswer_itemAt isData i
  | _ =>
    cases s with
    | key name => exact hmember name
    | index i => exact .inr rfl

/-- **Paths in data.** Following a path in data leads to data or nowhere. -/
theorem isAnswer_follow (h : v.IsData) (p : Path) : (v.follow p).IsAnswer := by
  induction p generalizing v with
  | nil => exact .inl h
  | cons s rest ih =>
    rw [follow]
    split
    · exact .inr rfl
    · rcases isAnswer_step h s with hs | hs
      · exact ih hs
      · cases rest with
        | nil => exact .inr hs
        | cons t rest => exact .inr (by rw [hs]; exact follow_of_isNothing rfl t rest)

end Value

namespace Render

/-- **Rendering data.** Data renders the same in every context, and whatever trees go on in. -/
theorem renderNode_of_isData {s : Setting} {onward onward' : Context → Value → Pass Text} {v : Value}
    (h : v.IsData) (ctx ctx' : Context) :
    renderNode s onward v ctx = renderNode s onward' v ctx' := by
  have hall : ∀ items : List Value,
      (∀ v ∈ items, renderNode s onward v ctx = renderNode s onward' v ctx') →
      renderAll s onward items ctx = renderAll s onward' items ctx' := by
    intro items h
    induction items with
    | nil => simp only [renderAll]
    | cons v rest ih =>
      simp only [renderAll, h v (by simp), ih fun w hw => h w (List.mem_cons_of_mem _ hw)]
  induction h with
  | list items _ ih | tuple items _ ih =>
    simp only [renderNode]
    exact hall items ih
  | object attributes _ unmarked =>
    simp only [renderNode, unmarked]
    rfl
  | _ => simp only [renderNode]

end Render

end Stencil
