import Stencil.Config.Environment
import Stencil.Proofs.Value.Mapping

/-!
# Settings

What a configuration says is told by its paths of keys (`valueAt`). At a path it has nothing, a mapping, or
something that is no mapping, and only the last is a setting (`settingAt`). Two configurations that have
the same at every path differ in the order of their keys at most (`SameSettings`).

An override puts its value at its path. Below that path is found what is in the value, and at every path
that goes another way nothing changes (`valueAt_assign`). Overrides whose paths do not begin with each other
do not get in each other's way (`valueAt_foldl_of_mem`).
-/

namespace Stencil

namespace Value

variable {k : Value} {name : String}

/-- The keys that are the same as a text are those with this text. -/
theorem sameKey_eq_of_text? (h : k.text? = some name) (q : Value) :
    k.sameKey q = (q.text? == some name) := by
  cases k with
  | str s | raw s =>
    obtain rfl := Option.some.inj h
    cases q <;> simp [sameKey, sameScalarKey, integerKey?, text?, BEq.comm]
  | _ => cases h

theorem sameKey_eq_of_text?_right (h : k.text? = some name) (q : Value) :
    q.sameKey k = (q.text? == some name) := by
  cases k with
  | str s | raw s =>
    obtain rfl := Option.some.inj h
    cases q <;> simp [sameKey, sameScalarKey, integerKey?, text?]
  | _ => cases h

end Value

namespace Mapping

variable {m : Mapping} {name other : String}

/-- A key is looked up by its text, if it has one. -/
theorem get?_of_text? {key : Value} (h : key.text? = some name) (m : Mapping) :
    get? key m = m.at? name := by
  have hname : (Value.str name).text? = some name := rfl
  rw [at?]
  induction m with
  | nil => rfl
  | cons entry rest ih =>
    obtain ⟨k, v⟩ := entry
    rw [get?, get?, ih, Value.sameKey_eq_of_text?_right h, Value.sameKey_eq_of_text?_right hname]

theorem get?_set (key : Value) (name : String) (v : Value) (m : Mapping) :
    get? key (m.set name v) = if key.text? = some name then some v else get? key m := by
  split
  · next h => rw [get?_of_text? h, at?_set_self]
  · next h =>
    have hname : (Value.str name).text? = some name := rfl
    rw [set]
    induction m with
    | nil => simp [put, get?, Value.sameKey_eq_of_text? hname, h]
    | cons entry rest ih =>
      obtain ⟨k, w⟩ := entry
      rw [put, Value.sameKey_eq_of_text?_right hname]
      by_cases hk : k.text? = some name
      · simp [get?, hk, Value.sameKey_eq_of_text? hk, h]
      · simp [get?, hk, ih]

/-- A name that is not there is put behind all others. -/
theorem set_of_at?_eq_none (h : m.at? name = none) (v : Value) :
    m.set name v = m ++ [(.str name, v)] := by
  induction m with
  | nil => rfl
  | cons entry rest ih =>
    obtain ⟨k, w⟩ := entry
    rw [at?, get?] at h
    split at h
    · cases h
    · next hk =>
      rw [set, put, if_neg hk, List.cons_append]
      exact congrArg _ (ih h)

/-- The last value at a name is the one that counts. -/
theorem set_set (name : String) (v w : Value) (m : Mapping) :
    (m.set name v).set name w = m.set name w := by
  induction m with
  | nil => simp [set, put]
  | cons entry rest ih =>
    obtain ⟨k, u⟩ := entry
    by_cases hk : k.sameKey (.str name) = true
    · simp [set, put, hk]
    · simpa [set, put, hk] using ih

/-- Another name may be set before a name that is there. -/
theorem set_set_of_ne (h : m.at? name ≠ none) (hne : other ≠ name) (v w : Value) :
    (m.set other v).set name w = (m.set name w).set other v := by
  induction m with
  | nil => exact absurd rfl h
  | cons entry rest ih =>
    obtain ⟨k, u⟩ := entry
    by_cases hk : k.sameKey (.str name) = true
    · have hother : ¬ k.sameKey (.str other) = true := fun ho => hne <| Option.some.inj <|
        (Value.sameKey_iff_text?.mp ho).symm.trans (Value.sameKey_iff_text?.mp hk)
      simp [set, put, hk, hother]
    · have hrest : Mapping.at? name rest ≠ none := by
        rw [at?, get?, if_neg hk] at h
        exact h
      by_cases hother : k.sameKey (.str other) = true
      · simp [set, put, hk, hother]
      · simpa [set, put, hk, hother] using ih hrest

end Mapping

namespace Config

open Value

/-! ### What is found at a path -/

/-- The value at a path of keys, through mappings only. -/
def valueAt : List Value → Value → Option Value
  | [], v => some v
  | key :: rest, v => (v.entries?.bind (Mapping.get? key)).bind (valueAt rest)

/-- What a configuration has at a path of keys. -/
inductive Setting where
  /-- Nothing. -/
  | missing
  /-- A mapping. -/
  | mapping
  /-- A value that is no mapping. -/
  | leaf (v : Value)

/-- What is there, if a value is or none. -/
def Setting.of : Option Value → Setting
  | none => .missing
  | some (.map _) => .mapping
  | some v => .leaf v

/-- What a value has at a path of keys. -/
def settingAt (path : List Value) (v : Value) : Setting := .of (valueAt path v)

/-- **The same settings.** The same is found at every path of keys. -/
def SameSettings (v w : Value) : Prop := ∀ path, settingAt path v = settingAt path w

/-- The keys of a path of names. -/
def keysOf (path : List String) : List Value := path.map .str

theorem map_text?_keysOf (path : List String) : (keysOf path).map text? = path.map some := by
  simp [keysOf, text?]

section Found

variable {v w : Value} {m n : Mapping} {key : Value} {name : String}

theorem valueAt_cons_map (key : Value) (rest : List Value) (m : Mapping) :
    valueAt (key :: rest) (.map m) = (m.get? key).bind (valueAt rest) := rfl

theorem Setting.of_eq_missing_iff {found : Option Value} : of found = missing ↔ found = none := by
  rcases found with _ | v
  · simp [of]
  · cases v <;> simp [of]

/-- Configurations with the same settings have the same ones under every name. -/
theorem SameSettings.at? (h : SameSettings (.map m) (.map n)) (name : String) :
    (m.at? name = none ∧ n.at? name = none) ∨
      ∃ v w, m.at? name = some v ∧ n.at? name = some w ∧ SameSettings v w := by
  have hfound : ∀ rest, Setting.of ((m.at? name).bind (valueAt rest)) =
      Setting.of ((n.at? name).bind (valueAt rest)) := fun rest => h (.str name :: rest)
  cases hm : m.at? name with
  | none =>
    have hroot := hfound []
    rw [hm, Option.bind_none, eq_comm, Setting.of, Setting.of_eq_missing_iff] at hroot
    exact .inl ⟨rfl, by simpa [valueAt] using hroot⟩
  | some v =>
    cases hn : n.at? name with
    | none =>
      have hroot := hfound []
      rw [hm, hn, Option.bind_none, Setting.of_eq_missing_iff.mpr rfl, Setting.of_eq_missing_iff] at hroot
      cases hroot
    | some w => exact .inr ⟨v, w, rfl, rfl, fun rest => by simpa [hm, hn, settingAt] using hfound rest⟩

end Found

/-! ### Putting a value at a path -/

/-- The mapping that stands in the way of a path: what is no mapping makes room for an empty one. -/
def entriesOf (current : Option Value) : Mapping := (current.bind Value.entries?).getD []

/-- What is under a name when a value is put at a path that begins with it. -/
def placed (value : Value) (rest : List String) (current : Option Value) : Value :=
  match rest with
  | [] => value
  | next :: rest => .map (assign value (next :: rest) (entriesOf current))

theorem assign_cons (value : Value) (name : String) (rest : List String) (m : Mapping) :
    assign value (name :: rest) m = m.set name (placed value rest (m.at? name)) := by
  cases rest <;> rfl

section Assign

variable {v : Value} {m : Mapping} {p : List String}

theorem valueAt_assign (v : Value) (name : String) (rest : List String) (m : Mapping) (key : Value)
    (q : List Value) :
    valueAt (key :: q) (.map (assign v (name :: rest) m)) =
      if key.text? = some name then valueAt q (placed v rest (m.at? name))
      else valueAt (key :: q) (.map m) := by
  rw [assign_cons, valueAt_cons_map, Mapping.get?_set]
  split <;> rfl

/-- In the mapping that makes room is found what was there, which is nothing in what is no mapping. -/
theorem valueAt_entriesOf (current : Option Value) (key : Value) (q : List Value) :
    valueAt (key :: q) (.map (entriesOf current)) = current.bind (valueAt (key :: q)) := by
  rcases current with _ | v
  · rfl
  · cases v <;> rfl

/-- Below the path of a value what is in the value is found. -/
theorem valueAt_assign_append (hp : p ≠ []) {q : List Value} (hq : q.map text? = p.map some)
    (v : Value) (m : Mapping) (rest : List Value) :
    valueAt (q ++ rest) (.map (assign v p m)) = valueAt rest v := by
  induction p generalizing q m with
  | nil => exact absurd rfl hp
  | cons name p ih =>
    obtain ⟨key, q, rfl, hkey, hq⟩ := List.map_eq_cons_iff.mp hq
    rw [List.cons_append, valueAt_assign, if_pos hkey]
    cases p with
    | nil =>
      obtain rfl : q = [] := List.map_eq_nil_iff.mp hq
      rfl
    | cons next p => exact ih (by simp) hq _

/-- At a path that goes another way nothing changes. -/
theorem valueAt_assign_of_apart {q : List Value} (h : ¬ p.map some <+: q.map text?)
    (h' : ¬ q.map text? <+: p.map some) (v : Value) (m : Mapping) :
    valueAt q (.map (assign v p m)) = valueAt q (.map m) := by
  induction p generalizing q m with
  | nil => exact absurd List.nil_prefix h
  | cons name p ih =>
    cases q with
    | nil => exact absurd List.nil_prefix h'
    | cons key q =>
      rw [valueAt_assign]
      split
      · next hkey =>
        simp only [List.map_cons, hkey, List.cons_prefix_cons, true_and] at h h'
        cases p with
        | nil => exact absurd List.nil_prefix h
        | cons next p =>
          cases q with
          | nil => exact absurd List.nil_prefix h'
          | cons key' q =>
            rw [placed, ih h h', valueAt_entriesOf, valueAt_cons_map key, Mapping.get?_of_text? hkey]
      · rfl

/-- Putting values with the same settings into configurations with the same settings leaves the
settings the same. -/
theorem SameSettings.assign {v w : Value} {m n : Mapping} (hm : SameSettings (.map m) (.map n))
    (hv : SameSettings v w) (p : List String) :
    SameSettings (.map (assign v p m)) (.map (assign w p n)) := by
  induction p generalizing m n with
  | nil => exact hm
  | cons name rest ih =>
    intro q
    cases q with
    | nil => rfl
    | cons key q =>
      rw [settingAt, settingAt, valueAt_assign, valueAt_assign]
      split
      · cases rest with
        | nil => exact hv q
        | cons next rest =>
          refine ih ?_ q
          obtain ⟨hmissing, hmissing'⟩ | ⟨a, b, ha, hb, hab⟩ := hm.at? name
          · rw [hmissing, hmissing']
            exact fun _ => rfl
          · intro q
            cases q with
            | nil => rfl
            | cons key q =>
              rw [ha, hb, settingAt, settingAt, valueAt_entriesOf, valueAt_entriesOf]
              exact hab (key :: q)
      · exact hm (key :: q)

end Assign

/-! ### Overrides that stand apart -/

/-- Overrides of which neither path begins with the other. -/
def Override.Apart (a b : Override) : Prop := ¬ a.path <+: b.path ∧ ¬ b.path <+: a.path

section Overrides

variable {os : List Override} {m : Mapping}

theorem valueAt_foldl_of_apart {q : List Value}
    (h : ∀ o ∈ os, ¬ o.path.map some <+: q.map text? ∧ ¬ q.map text? <+: o.path.map some)
    (m : Mapping) : valueAt q (.map (os.foldl applyOverride m)) = valueAt q (.map m) := by
  induction os generalizing m with
  | nil => rfl
  | cons o rest ih =>
    obtain ⟨hfirst, hrest⟩ := List.forall_mem_cons.mp h
    rw [List.foldl_cons, ih hrest, applyOverride, valueAt_assign_of_apart hfirst.1 hfirst.2]

private theorem prefix_of_map_some {p q : List String} (h : p.map some <+: q.map some) : p <+: q := by
  have := h.filterMap id
  simpa [List.filterMap_map] using this

/-- What goes on from the path of an override goes another way than overrides that stand apart. -/
private theorem Override.Apart.append {a b : Override} (h : a.Apart b) {q : List Value}
    (hq : q.map text? = a.path.map some) (rest : List Value) :
    ¬ b.path.map some <+: (q ++ rest).map text? ∧ ¬ (q ++ rest).map text? <+: b.path.map some := by
  rw [List.map_append, hq]
  refine ⟨fun hp => ?_, fun hp => h.1 (prefix_of_map_some ((List.prefix_append _ _).trans hp))⟩
  rcases List.prefix_or_prefix_of_prefix hp (List.prefix_append (a.path.map some) (rest.map text?)) with
    hp | hp
  · exact h.2 (prefix_of_map_some hp)
  · exact h.1 (prefix_of_map_some hp)

/-- **Overrides that stand apart.** Below the path of each of them what is in its value is found. -/
theorem valueAt_foldl_of_mem (hapart : os.Pairwise Override.Apart) {o : Override} (ho : o ∈ os)
    (hpath : o.path ≠ []) {q : List Value} (hq : q.map text? = o.path.map some) (m : Mapping)
    (rest : List Value) :
    valueAt (q ++ rest) (.map (os.foldl applyOverride m)) = valueAt rest o.value := by
  induction os generalizing m with
  | nil => cases ho
  | cons first others ih =>
    obtain ⟨hfirst, hothers⟩ := List.pairwise_cons.mp hapart
    rw [List.foldl_cons]
    rcases List.mem_cons.mp ho with rfl | ho
    · rw [valueAt_foldl_of_apart fun b hb => (hfirst b hb).append hq rest, applyOverride,
        valueAt_assign_append hpath hq]
    · exact ih hothers ho _

/-- Overrides of the same paths by values with the same settings. -/
theorem SameSettings.foldl {f g : Override → Value} (h : ∀ o ∈ os, SameSettings (f o) (g o))
    (m : Mapping) :
    SameSettings (.map ((os.map fun o => { o with value := f o }).foldl applyOverride m))
      (.map ((os.map fun o => { o with value := g o }).foldl applyOverride m)) := by
  suffices ∀ m n : Mapping, SameSettings (.map m) (.map n) →
      SameSettings (.map ((os.map fun o => { o with value := f o }).foldl applyOverride m))
        (.map ((os.map fun o => { o with value := g o }).foldl applyOverride n)) from
    this m m fun _ => rfl
  induction os with
  | nil => exact fun _ _ hmn => hmn
  | cons o rest ih =>
    obtain ⟨hfirst, hrest⟩ := List.forall_mem_cons.mp h
    intro m n hmn
    exact ih hrest _ _ (hmn.assign hfirst o.path)

end Overrides

end Config

end Stencil
