import Stencil.Component.Evaluate
import Stencil.Proofs.Marker.Bindings

/-!
# Ways into data

A way leads through the entries of mappings and the first items of lists (`WayTo`). It can be taken as a
path, and along the properties of a component, and it leads to the same place (`WayTo.follow_eq`,
`WayTo.select_eq`). **In the marked copy of a sample a way leads to the marked copy of what it leads to in
the sample** (`WayTo.exists_marks`), so that the way to a leaf leads to the token of its path.

The text that marking writes for a way is put together of the text of the base and that of the steps
(`toList_pathTo`).
-/

namespace Stencil.Marker

open Text

/-- A way from a value to what is inside it, by the entries of mappings and the first items of lists. -/
inductive WayTo : Value → Path → Value → Prop
  | here (v : Value) : WayTo v [] v
  | entry {entries : Mapping} {name : String} {v w : Value} {p : Path}
      (found : entries.at? name = some v) (next : WayTo v p w) :
      WayTo (.map entries) (.key name :: p) w
  | first {v item w : Value} {rest : List Value} {p : Path} (items : v.items? = some (item :: rest))
      (next : WayTo item p w) : WayTo v (.index 0 :: p) w

namespace WayTo

variable {v w : Value} {p : Path}

theorem isNothing_eq_false {s : Segment} (h : WayTo v (s :: p) w) : v.isNothing = false := by
  cases h with
  | entry => rfl
  | first items => cases v <;> first | rfl | cases items

theorem isFirst (h : WayTo v p w) : IsFirst p := by
  induction h with
  | here => exact isFirst_nil
  | entry found next ih => exact isFirst_key.mpr ih
  | first items next ih => exact isFirst_index.mpr ⟨rfl, ih⟩

/-- The way from a mapping to a list begins with a key. -/
theorem exists_eq_key {entries : Mapping} (h : WayTo (.map entries) p w) {items : List Value}
    (hw : w.items? = some items) : ∃ name q, p = .key name :: q := by
  cases h with
  | here => cases hw
  | entry found next => exact ⟨_, _, rfl⟩
  | first items => cases items

/-- The path that a way is leads along it. -/
theorem follow_eq (h : WayTo v p w) : v.follow p = w := by
  induction h with
  | here => rfl
  | @entry entries name v w p found next ih =>
    have hstep : (Value.map entries).step (.key name) = v := by
      have hget : Mapping.get? (.str name) entries = some v := found
      simp only [Value.step, Value.entryAt, Segment.toValue, hget]
    rw [Value.follow, hstep]
    exact ih
  | @first v item w rest p items next ih =>
    have hstep : v.step (.index 0) = item := by
      cases v <;> simp_all [Value.items?, Value.step, Value.itemAt]
    rw [Value.follow, (WayTo.first items next).isNothing_eq_false, hstep]
    exact ih

/-- A variable's path leads along a way. -/
theorem select_eq (h : WayTo v p w) : v.select p = w := by
  induction h with
  | here => rfl
  | @entry entries name v w p found next ih =>
    have hselect : (Value.map entries).select? (.key name) = some v := found
    rw [Value.select, hselect]
    exact ih
  | @first v item w rest p items next ih =>
    have hselect : v.select? (.index 0) = some item := by
      cases v <;> simp_all [Value.items?, Value.select?]
    rw [Value.select, hselect]
    exact ih

/-! ### Marked copies -/

variable {shape : Shape} {copy : Value} {r r' : Registry}

/-- **Marked copies.** A way leads to the marked copy of what it leads to in the sample. -/
theorem exists_marks {base : String} (h : WayTo v p w) (hmarks : Marks shape base v r copy r') :
    ∃ x s s', WayTo copy p x ∧ Marks shape (pathTo base p) w s x s' ∧ s'.Extends r' := by
  induction h generalizing base r copy r' with
  | here => exact ⟨copy, r, r', .here _, hmarks, .refl _⟩
  | entry found next ih =>
    obtain ⟨copies, rfl, each⟩ := hmarks.of_map
    obtain ⟨u, s, s', hu, hfound, hextends⟩ := each.exists_marks_of_at? found
    obtain ⟨x, t, t', hway, hx, hgrows⟩ := ih hu
    exact ⟨x, t, t', .entry hfound hway, hx, hgrows.trans hextends⟩
  | first items next ih =>
    obtain ⟨u, rfl, hu⟩ := hmarks.of_items? items
    obtain ⟨x, s, s', hway, hx, hextends⟩ := ih hu
    exact ⟨x, s, s', .first rfl hway, hx, hextends⟩

/-- In a marked copy the way to a leaf leads to the token of its path, which is bound. -/
theorem leaf_mark {base : String} (h : WayTo v p w) (hleaf : isLeaf w = true)
    (hmarks : Marks shape base v r copy r') :
    WayTo copy p (.str (shape.token (pathTo base p))) ∧
      (shape.token (pathTo base p), pathTo base p) ∈ r'.paths := by
  obtain ⟨x, s, s', hway, hx, hextends⟩ := h.exists_marks hmarks
  obtain ⟨rfl, hbind⟩ := hx.of_isLeaf hleaf
  exact ⟨hway, hextends (Registry.extends_of_bind hbind).2⟩

end WayTo

/-! ### The texts of ways -/

/-- The steps of a way behind the text of its base. -/
def stepsText : Path → Text
  | [] => []
  | .key name :: p => '.' :: (name.toList ++ stepsText p)
  | .index _ :: p => '.' :: '[' :: '0' :: ']' :: stepsText p

theorem pathTo_append (base : String) (p q : Path) :
    pathTo base (p ++ q) = pathTo (pathTo base p) q := by
  induction p generalizing base with
  | nil => rfl
  | cons s p ih =>
    cases s with
    | key name => exact ih (Path.join base (.str name))
    | index i => exact ih (Path.item base)

private theorem toList_ne_nil {base : String} (hbase : base.toList ≠ []) : base.isEmpty = false := by
  simpa using hbase

/-- Behind a base the text of a way is the text of its steps. -/
theorem toList_pathTo {base : String} (hbase : base.toList ≠ []) (p : Path) :
    (pathTo base p).toList = base.toList ++ stepsText p := by
  induction p generalizing base with
  | nil => exact (List.append_nil _).symm
  | cons s p ih =>
    cases s with
    | key name =>
      have hjoin : (Path.join base (.str name)).toList = base.toList ++ '.' :: name.toList := by
        have hshown : (Value.str name).displayString = name := by simp [Value.displayString]
        have hdot : ".".toList = ['.'] := by decide
        rw [Path.join, hshown, toList_ne_nil hbase]
        simp [String.toList_append, hdot]
      rw [pathTo, ih (by simp [hjoin]), hjoin]
      simp [stepsText]
    | index i =>
      have hitem : (Path.item base).toList = base.toList ++ ['.', '[', '0', ']'] := by
        have hzero : ".[0]".toList = ['.', '[', '0', ']'] := by decide
        rw [Path.item, toList_ne_nil hbase]
        simp [String.toList_append, hzero]
      rw [pathTo, ih (by simp [hitem]), hitem]
      simp [stepsText]

/-- The text of a way by first items is read as the way. -/
theorem read_pathTo_of_isKey {p : Path} (hkeys : ∀ name, .key name ∈ p → Path.IsKey name)
    (hfirst : IsFirst p) {base : String} {q : Path} (hbase : Path.read base.toList = .ok q) :
    Path.read (pathTo base p).toList = .ok (q ++ p) := by
  induction p generalizing base q with
  | nil => rwa [pathTo, List.append_nil]
  | cons s p ih =>
    have hrest : ∀ name, .key name ∈ p → Path.IsKey name := fun name hmem =>
      hkeys name (List.mem_cons_of_mem _ hmem)
    cases s with
    | key name =>
      have hkey := hkeys name List.mem_cons_self
      simpa [pathTo] using ih hrest (isFirst_key.mp hfirst)
        (Path.read_join hbase (rfl : (Value.str name).text? = some name) hkey)
    | index i =>
      obtain rfl : i = 0 := hfirst i List.mem_cons_self
      have hnext : IsFirst p := fun j hj => hfirst j (List.mem_cons_of_mem _ hj)
      simpa [pathTo] using ih hrest hnext (Path.read_item hbase)

/-- The text of a way from the root begins with its first key. -/
theorem toList_pathTo_root {name : String} (hname : name.toList ≠ []) (p : Path) :
    (pathTo "" (.key name :: p)).toList = name.toList ++ stepsText p := by
  have hjoin : Path.join "" (.str name) = name := by simp [Path.join, Value.displayString]
  rw [pathTo, hjoin, toList_pathTo hname]

end Stencil.Marker
