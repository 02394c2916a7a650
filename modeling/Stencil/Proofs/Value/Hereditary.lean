import Mathlib.Data.Nat.Notation
import Mathlib.Tactic.SplitIfs
import Stencil.Component.Evaluate
import Stencil.Proofs.Value.Mapping

/-!
# What values hand down

A predicate is hereditary if a value that has it hands it down to everything inside it, and if values that
are made of nothing else have it. **Whatever is reached from a value by a path has every hereditary
predicate that the value has** (`Hereditary.follow`, `Hereditary.walk`, `Hereditary.select`), and so have
its items and attributes, the variables that properties are bound to (`Component.forall_arguments`), and
what conditions and loops of a context look at (`Render.Context.Every.scopedData`).
-/

namespace Stencil

namespace Mapping

variable {m : Mapping} {key v : Value} {p q : Value → Prop}

/-- Putting in a key and a value adds nothing else. -/
theorem forall_put (h : ∀ entry ∈ m, p entry.1 ∧ q entry.2) (hkey : p key) (hv : q v) :
    ∀ entry ∈ m.put key v, p entry.1 ∧ q entry.2 := by
  induction m with
  | nil => simpa [put] using And.intro hkey hv
  | cons entry rest ih =>
    obtain ⟨k, w⟩ := entry
    obtain ⟨hfirst, hrest⟩ := List.forall_mem_cons.mp h
    rw [put]
    split
    · exact List.forall_mem_cons.mpr ⟨⟨hfirst.1, hv⟩, hrest⟩
    · exact List.forall_mem_cons.mpr ⟨hfirst, ih hrest⟩

/-- What holds of given entries holds of the mapping that is made of them. -/
theorem forall_ofEntries {entries : List (Value × Value)}
    (h : ∀ entry ∈ entries, p entry.1 ∧ q entry.2) :
    ∀ entry ∈ ofEntries entries, p entry.1 ∧ q entry.2 := by
  have hput : ∀ (more : List (Value × Value)) (m : Mapping), (∀ entry ∈ m, p entry.1 ∧ q entry.2) →
      (∀ entry ∈ more, p entry.1 ∧ q entry.2) →
      ∀ entry ∈ more.foldl (fun m entry => put entry.1 entry.2 m) m, p entry.1 ∧ q entry.2 := by
    intro more
    induction more with
    | nil => exact fun m hm _ => hm
    | cons first rest ih =>
      intro m hm hmore
      obtain ⟨hfirst, hrest⟩ := List.forall_mem_cons.mp hmore
      exact ih _ (forall_put hm hfirst.1 hfirst.2) hrest
  exact hput entries [] (by simp) h

/-- Erasing a key takes entries away and adds none. -/
theorem erase_sublist (name : String) (m : Mapping) : (m.erase name).Sublist m := by
  induction m with
  | nil => exact .refl _
  | cons entry rest ih =>
    rw [erase]
    split
    · exact List.sublist_cons_self entry rest
    · exact ih.cons_cons entry

/-- All keys and values of a mapping have a predicate. -/
def Every (p : Value → Prop) (m : Mapping) : Prop := ∀ entry ∈ m, p entry.1 ∧ p entry.2

namespace Every

/-- What is found in a mapping is one of its values. -/
theorem get? (h : m.Every p) (hget : get? key m = some v) : p v := by
  obtain ⟨k, hmem⟩ := exists_mem_of_get? hget
  exact (h _ hmem).2

/-- Putting a fine value at a fine key keeps all entries fine. -/
theorem put (h : m.Every p) (hkey : p key) (hv : p v) : (m.put key v).Every p := forall_put h hkey hv

/-- Erasing a key keeps all entries fine. -/
theorem erase (h : m.Every p) (name : String) : (m.erase name).Every p := fun entry hentry =>
  h entry ((erase_sublist name m).subset hentry)

end Every

end Mapping

namespace Value

/-- A predicate that values hand down to what is inside them. -/
structure Hereditary (p : Value → Prop) : Prop where
  null : p .null
  absent : p .absent
  str (s : String) : p (.str s)
  int (i : Int) : p (.int i)
  tuple {items : List Value} (h : ∀ v ∈ items, p v) : p (.tuple items)
  map {entries : Mapping} (h : entries.Every p) : p (.map entries)
  of_list {items : List Value} (h : p (.list items)) : ∀ v ∈ items, p v
  of_tuple {items : List Value} (h : p (.tuple items)) : ∀ v ∈ items, p v
  of_set {items : List Value} (h : p (.set items)) : ∀ v ∈ items, p v
  of_generator {id : ℕ} {items : List Value} (h : p (.generator id items)) : ∀ v ∈ items, p v
  of_map {entries : Mapping} (h : p (.map entries)) : entries.Every p
  of_object {attributes : List (String × Value)} (h : p (.object attributes)) :
    ∀ entry ∈ attributes, p entry.2
  of_element {type : Value} {props : Mapping} {children : List Value}
    (h : p (.element type props children)) : p type ∧ props.Every p ∧ ∀ v ∈ children, p v
  of_closure {name : String} {scope : Scope} {body : Body} {traits : List (String × Value)}
    (h : p (.closure name scope body traits)) :
    (∀ entry ∈ scope, p entry.2) ∧ ∀ entry ∈ traits, p entry.2

namespace Hereditary

variable {p : Value → Prop} (hp : Hereditary p) {v : Value}

include hp

/-! ### Parts -/

/-- What is found by a name is fine, also if it is not there. -/
theorem getD {m : Mapping} (h : m.Every p) (name : String) : p (m.getD name) := by
  unfold Mapping.getD
  cases hat : m.at? name with
  | none => exact hp.null
  | some v => exact h.get? hat

theorem set {m : Mapping} (h : m.Every p) (name : String) (hv : p v) : (m.set name v).Every p :=
  h.put (hp.str name) hv

/-- The items of a fine value are fine. -/
theorem items (h : p v) {items : List Value} (hitems : v.items? = some items) : ∀ w ∈ items, p w := by
  cases v with
  | list own =>
    obtain rfl : own = items := Option.some.inj hitems
    exact hp.of_list h
  | tuple own =>
    obtain rfl : own = items := Option.some.inj hitems
    exact hp.of_tuple h
  | _ => cases hitems

/-- The parts of a fine value are fine. -/
theorem parts (h : p v) {items : List Value} (hitems : v.parts = .ok items) : ∀ w ∈ items, p w := by
  cases v with
  | list own =>
    obtain rfl := Except.ok.inj hitems
    exact hp.of_list h
  | tuple own =>
    obtain rfl := Except.ok.inj hitems
    exact hp.of_tuple h
  | set own =>
    obtain rfl := Except.ok.inj hitems
    exact hp.of_set h
  | generator id own =>
    obtain rfl := Except.ok.inj hitems
    exact hp.of_generator h
  | map entries =>
    obtain rfl := Except.ok.inj hitems
    intro w hw
    obtain ⟨entry, hentry, rfl⟩ := List.mem_map.mp hw
    exact (hp.of_map h entry hentry).1
  | str s | raw s =>
    obtain rfl := Except.ok.inj hitems
    intro w hw
    obtain ⟨c, -, rfl⟩ := List.mem_map.mp hw
    exact hp.str _
  | bytes s =>
    obtain rfl := Except.ok.inj hitems
    intro w hw
    obtain ⟨c, -, rfl⟩ := List.mem_map.mp hw
    exact hp.int _
  | _ => cases hitems

private theorem itemAt {items : List Value} (h : ∀ w ∈ items, p w) (i : Int) : p (itemAt items i) := by
  have hget : ∀ n, p (items.getD n .absent) := by
    intro n
    rw [List.getD_eq_getElem?_getD]
    cases hn : items[n]? with
    | none => exact hp.absent
    | some w => exact h w (List.mem_of_getElem? hn)
  unfold Value.itemAt
  split_ifs
  · exact hget _
  · exact hget _
  · exact hp.absent

/-- The entry at a step of a path is fine. -/
private theorem entryAt {entries : Mapping} (h : entries.Every p) (s : Segment) :
    p (entryAt entries s) := by
  unfold Value.entryAt
  split
  · next hget => exact h.get? hget
  · split
    · exact hp.absent
    · next i _ =>
      cases hat : Mapping.at? (String.ofList (Decimal.intText i)) entries with
      | none => exact hp.absent
      | some w => exact h.get? hat

/-- The attributes of a value have what the value has. -/
theorem member (h : p v) (name : String) : p (v.member name) := by
  -- dates and moments have numbers for attributes
  have hnumber : ∀ parts : List (String × Nat),
      p (((parts.lookup name).map fun n => Value.int n).getD .absent) := by
    intro parts
    cases parts.lookup name with
    | none => exact hp.absent
    | some n => exact hp.int n
  have hlookup : ∀ {attributes : List (String × Value)} {w : Value},
      (∀ entry ∈ attributes, p entry.2) → attributes.lookup name = some w → p w := by
    intro attributes w hall hw
    obtain ⟨before, after, rfl, -⟩ := List.lookup_eq_some_iff.mp hw
    exact hall (name, w) (by simp)
  unfold Value.member
  cases v with
  | object attributes =>
    rw [member?]
    cases hw : attributes.lookup name with
    | none => exact hp.absent
    | some w => exact hlookup (hp.of_object h) hw
  | element type props children =>
    obtain ⟨htype, hprops, hchildren⟩ := hp.of_element h
    rw [member?]
    split_ifs
    · exact htype
    · exact hp.map hprops
    · exact hp.tuple hchildren
    · exact hp.str _
    · exact hp.absent
  | closure own scope body traits =>
    rw [member?]
    cases hw : traits.lookup name with
    | none =>
      split_ifs
      · exact hp.str own
      · exact hp.absent
    | some w => exact hlookup (hp.of_closure h).2 hw
  | date d => exact hnumber d.parts
  | moment m =>
    rw [member?]
    split
    · exact hp.null
    · exact hnumber m.parts
  | _ => exact hp.absent

/-! ### Paths -/

/-- One step of a path leads from fine values to fine values only. -/
theorem step (h : p v) (s : Segment) : p (v.step s) := by
  have hmember := hp.member h
  cases v with
  | map entries => exact hp.entryAt (hp.of_map h) s
  | list items =>
    cases s with
    | key name => exact hp.absent
    | index i => exact hp.itemAt (hp.of_list h) i
  | tuple items =>
    cases s with
    | key name => exact hp.absent
    | index i => exact hp.itemAt (hp.of_tuple h) i
  | _ =>
    cases s with
    | key name => exact hmember name
    | index i => exact hp.absent

/-- **Paths.** What a path leads to has what the value has. -/
theorem follow (h : p v) (path : Path) : p (v.follow path) := by
  induction path generalizing v with
  | nil => exact h
  | cons s rest ih =>
    rw [Value.follow]
    split
    · exact hp.absent
    · exact ih (hp.step h s)

/-- So does a path that is looked up. -/
theorem lookup (h : p v) {path : Text} {w : Value} (hw : v.lookup path = .ok w) : p w := by
  obtain ⟨-, rfl⟩ := lookup_eq_ok_iff.mp hw
  exact hp.follow h _

/-- So does a position that is given as a value. -/
theorem itemFrom (h : p v) {i : Int} {w : Value} (hw : v.itemFrom i = .ok w) : p w := by
  have hitem : ∀ {items : List Value} {failure : Failure}, (∀ u ∈ items, p u) →
      (if i < -items.length then Except.error failure else .ok (Value.itemAt items i)) = .ok w → p w := by
    intro items failure hall heq
    split at heq
    · cases heq
    · obtain rfl := Except.ok.inj heq
      exact hp.itemAt hall i
  cases v with
  | list items => exact hitem (hp.of_list h) hw
  | tuple items => exact hitem (hp.of_tuple h) hw
  | _ =>
    obtain rfl := Except.ok.inj hw
    exact hp.absent

private theorem entryFrom {entries : Mapping} (h : entries.Every p) {key w : Value}
    (hw : entryFrom entries key = .ok w) : p w := by
  unfold Value.entryFrom at hw
  cases hkey : key.checkKey with
  | error failure =>
    rw [hkey] at hw
    cases hw
  | ok =>
    rw [hkey] at hw
    dsimp only [bind, Except.bind] at hw
    split at hw
    · next hget =>
      obtain rfl := Except.ok.inj hw
      exact h.get? hget
    · split at hw
      · obtain rfl := Except.ok.inj hw
        cases hat : Mapping.at? key.displayString entries with
        | none => exact hp.absent
        | some u => exact h.get? hat
      · obtain rfl := Except.ok.inj hw
        exact hp.absent

/-- So does a step that is given as a value. -/
theorem stepFrom (h : p v) {key w : Value} (hw : v.stepFrom key = .ok w) : p w := by
  unfold Value.stepFrom at hw
  split at hw
  · next entries => exact hp.entryFrom (hp.of_map h) hw
  · split at hw
    · exact hp.itemFrom h hw
    · obtain rfl := Except.ok.inj hw
      exact hp.absent
  · split at hw
    · exact hp.itemFrom h hw
    · obtain rfl := Except.ok.inj hw
      exact hp.absent
  · split at hw
    · obtain rfl := Except.ok.inj hw
      exact hp.member h _
    · obtain rfl := Except.ok.inj hw
      exact hp.absent

/-- What steps that are given as values lead to has what the value has. -/
theorem walk (h : p v) {steps : List Value} {w : Value} (hw : v.walk steps = .ok w) : p w := by
  induction steps generalizing v with
  | nil =>
    obtain rfl := Except.ok.inj hw
    exact h
  | cons key rest ih =>
    rw [Value.walk] at hw
    split at hw
    · obtain rfl := Except.ok.inj hw
      exact hp.absent
    · cases hstep : v.stepFrom key with
      | error failure =>
        rw [hstep] at hw
        cases hw
      | ok u =>
        rw [hstep] at hw
        exact ih (hp.stepFrom h hstep) hw

/-- What a variable's path leads to has what the value has. -/
theorem select (h : p v) (path : Path) : p (v.select path) := by
  induction path generalizing v with
  | nil => exact h
  | cons s rest ih =>
    rw [Value.select]
    split
    · next inner hinner =>
      refine ih ?_
      unfold select? at hinner
      split at hinner
      · exact (hp.of_map h).get? hinner
      · split_ifs at hinner
        exact hp.of_list h _ (List.mem_of_getElem? hinner)
      · split_ifs at hinner
        exact hp.of_tuple h _ (List.mem_of_getElem? hinner)
      · cases hinner
    · exact hp.null

theorem propertyChildren (h : p v) : ∀ w ∈ Element.propertyChildren v, p w := by
  unfold Element.propertyChildren
  split
  · exact List.forall_mem_nil _
  · exact hp.of_list h
  · exact hp.of_tuple h
  · exact List.forall_mem_singleton.mpr h

end Hereditary

end Value

/-! ### Attributes and arguments -/

/-- Attributes with each name once are attributes that are given. -/
theorem Body.forall_attributesOf {attributes : List (String × Value)} {p : String → Prop}
    {q : Value → Prop} (h : ∀ entry ∈ attributes, p entry.1 ∧ q entry.2) :
    ∀ entry ∈ attributesOf attributes, p entry.1 ∧ q entry.2 := by
  intro entry hentry
  obtain ⟨kept, hkept, hname⟩ := List.mem_filterMap.mp hentry
  obtain ⟨name, htext, rfl⟩ := Option.map_eq_some_iff.mp hname
  have hall : ∀ e ∈ Mapping.ofEntries (attributes.map fun own => (Value.str own.1, own.2)),
      (∀ name ∈ e.1.text?, p name) ∧ q e.2 := by
    refine Mapping.forall_ofEntries (p := fun k => ∀ name ∈ k.text?, p name) fun e he => ?_
    obtain ⟨own, hown, rfl⟩ := List.mem_map.mp he
    refine ⟨fun name hname => ?_, (h own hown).2⟩
    obtain rfl : own.1 = name := Option.some.inj hname
    exact (h own hown).1
  exact ⟨(hall kept hkept).1 name htext, (hall kept hkept).2⟩

/-- What properties are bound to is among their values. -/
theorem Component.forall_arguments {p : Value → Prop} {props : Mapping} (hprops : props.Every p)
    {arguments : Scope} (h : arguments? props = some arguments) : ∀ entry ∈ arguments, p entry.2 := by
  unfold arguments? at h
  induction props generalizing arguments with
  | nil =>
    obtain rfl : [] = arguments := by simpa using h
    exact List.forall_mem_nil _
  | cons entry rest ih =>
    obtain ⟨hentry, hrest⟩ := List.forall_mem_cons.mp hprops
    rw [List.mapM_cons] at h
    obtain ⟨first, hfirst, h⟩ := Option.bind_eq_some_iff.mp h
    obtain ⟨more, hmore, h⟩ := Option.bind_eq_some_iff.mp h
    obtain rfl := Option.some.inj h
    obtain ⟨name, -, rfl⟩ := Option.map_eq_some_iff.mp hfirst
    exact List.forall_mem_cons.mpr ⟨hentry.2, ih hrest hmore⟩

/-! ### Contexts -/

namespace Render

/-- A context all of whose values have a predicate. -/
structure Context.Every (p : Value → Prop) (ctx : Context) : Prop where
  data : p ctx.data
  array : ∀ l ∈ ctx.loop, p l.array
  itemVar : ∀ l ∈ ctx.loop, p l.itemVar

namespace Context.Every

variable {p : Value → Prop} (hp : Value.Hereditary p) {ctx : Context}

include hp

/-- The item that a loop is at is fine if the array is. -/
theorem current {l : LoopScope} (h : p l.array) {item : Value} (hitem : l.current = .ok item) :
    p item := by
  unfold LoopScope.current at hitem
  split at hitem
  · exact hp.itemFrom h hitem
  · obtain rfl := Except.ok.inj hitem
    exact hp.absent

/-- What conditions and loops of a node look at has what the values of its context have. -/
theorem scopedData (h : ctx.Every p) {data : Value} (hdata : ctx.scopedData = .ok data) : p data := by
  unfold Context.scopedData at hdata
  split at hdata
  · next l entries hloop hmap =>
    have hentries : Mapping.Every p entries := hp.of_map (hmap ▸ h.data)
    cases hcurrent : l.current with
    | error failure =>
      rw [hcurrent] at hdata
      cases hdata
    | ok item =>
      have hitem := current hp (h.array l hloop) hcurrent
      have hvisible : p (.map (withItem entries l.itemVar item)) := by
        refine hp.map ?_
        unfold withItem
        dsimp only
        split_ifs
        · exact (hp.set hentries "this" hitem).put (h.itemVar l hloop) hitem
        · exact hp.set hentries "this" hitem
      rw [hcurrent] at hdata
      dsimp only [bind, Except.bind] at hdata
      split at hdata
      · obtain rfl := Except.ok.inj hdata
        exact h.data
      · split at hdata
        · cases hkey : l.itemVar.checkKey with
          | error failure =>
            rw [hkey] at hdata
            cases hdata
          | ok =>
            rw [hkey] at hdata
            obtain rfl := Except.ok.inj hdata
            exact hvisible
        · obtain rfl := Except.ok.inj hdata
          exact hvisible
  · obtain rfl := Except.ok.inj hdata
    exact h.data

end Context.Every

end Render

end Stencil
