import Stencil.Proofs.Marker.Sample
import Stencil.Proofs.Text.Fields

/-!
# Paths of leaves

The path of a leaf is put together as text while a sample is marked, and taken apart again when it is
followed. Both sides speak of the same way through the data (`read_pathTo`), as long as the keys on it
are names: no separators in them, and not digits only, since these would be read as a position.

A marked copy differs from the sample at the leaves only (`Copies`), and a registry gets a binding for
a leaf only (`exists_leafAt_of_mem`). The main statement, `mark_sample`, puts the three together: **in
the copy that marking makes with an empty registry every leaf is a bound token, and every bound token
stands at its path in the copy, where the sample has the leaf; marking the copy again changes
nothing.**
-/

namespace Stencil

namespace Path

/-! ### Reading paths that were put together -/

/-- A dot separates the fields of two paths. -/
theorem fields_append (u v : Text) : fields (u ++ '.' :: v) = fields u ++ fields v := by
  rw [fields, Text.splitBy_append (by decide), List.filter_append]
  rfl

/-- A path is read as its steps if all of its fields can be read. -/
theorem read_eq_ok_iff {t : Text} {p : Path} :
    read t = .ok p ↔ (fields t).forM checkField = .ok () ∧ p = parse t := by
  unfold read
  cases hfields : (fields t).forM checkField with
  | error failure => simp [bind, Except.bind]
  | ok => simp [bind, Except.bind, pure, Except.pure, eq_comm]

/-- Two paths with a dot between them are one after the other. -/
theorem read_append {u v : Text} {p q : Path} (hu : read u = .ok p) (hv : read v = .ok q) :
    read (u ++ '.' :: v) = .ok (p ++ q) := by
  obtain ⟨hufields, rfl⟩ := read_eq_ok_iff.mp hu
  obtain ⟨hvfields, rfl⟩ := read_eq_ok_iff.mp hv
  have hparse : parse (u ++ '.' :: v) = parse u ++ parse v := by
    rw [parse, fields_append, List.map_append, ← parse, ← parse]
  refine read_eq_ok_iff.mpr ⟨?_, hparse.symm⟩
  have hforM : (fields u ++ fields v).forM checkField =
      (do (fields u).forM checkField; (fields v).forM checkField) := List.forM_append
  rw [fields_append, hforM, hufields]
  exact hvfields

/-- A name that is one step of a path: it has no separators, and does not consist of digits only (as
the empty one does). -/
structure IsKey (name : String) : Prop where
  isSeparator_of_mem : ∀ c ∈ name.toList, isSeparator c = false
  all_isDigit : name.toList.all Text.isDigit = false

instance : DecidablePred IsKey := fun name =>
  decidable_of_iff ((∀ c ∈ name.toList, isSeparator c = false) ∧ name.toList.all Text.isDigit = false)
    ⟨fun h => ⟨h.1, h.2⟩, fun h => ⟨h.1, h.2⟩⟩

theorem IsKey.read_eq {name : String} (h : IsKey name) : read name.toList = .ok [.key name] := by
  have hne : name.toList ≠ [] := by
    intro hnil
    simpa [hnil] using h.all_isDigit
  have hfields : fields name.toList = [name.toList] := by
    simp [fields, Text.splitBy_of_forall h.isSeparator_of_mem, hne]
  refine read_eq_ok_iff.mpr ⟨?_, ?_⟩
  · rw [hfields]
    simp only [List.forM, checkField, h.all_isDigit]
    rfl
  · simp [parse, hfields, segment, h.all_isDigit]

section Base

variable {base : String} {p : Path} (h : read base.toList = .ok p)

include h

private theorem eq_nil_of_isEmpty (hbase : base.isEmpty = true) : p = [] := by
  obtain rfl : base = "" := by simpa using hbase
  cases h
  rfl

/-- The path of an entry leads through the mapping to the entry. -/
theorem read_join {key : Value} {name : String} (hkey : key.text? = some name) (hname : IsKey name) :
    read (join base key).toList = .ok (p ++ [.key name]) := by
  rw [join, Value.displayString_of_text? hkey]
  split
  · next hbase =>
    rw [eq_nil_of_isEmpty h hbase]
    exact hname.read_eq
  · simpa using read_append h hname.read_eq

/-- The path of the item that stands for all items leads to the first one. -/
theorem read_item : read (item base).toList = .ok (p ++ [.index 0]) := by
  have hzero : read "[0]".toList = .ok [.index 0] := by rfl
  rw [item]
  split
  · next hbase =>
    rw [eq_nil_of_isEmpty h hbase]
    exact hzero
  · simpa using read_append h hzero

end Base

end Path

namespace Marker

/-! ### Leaves and ways to them -/

/-- Sample data whose leaves have paths: outside elements, and in the first items of lists, the keys of
a mapping are different names. -/
inductive HasPaths : Value → Prop
  | leaf {v : Value} (isLeaf : isLeaf v = true) : HasPaths v
  | element {v : Value} (isElement : v.isElement = true) : HasPaths v
  | list {v : Value} {items : List Value} (isList : v.items? = some items)
      (first : HasPaths (standIn items)) : HasPaths v
  | map {entries : Mapping} (keys : ∀ entry ∈ entries, ∃ name, entry.1.text? = some name ∧ Path.IsKey name)
      (nodup : (entries.map fun entry => entry.1.text?).Nodup)
      (values : ∀ entry ∈ entries, HasPaths entry.2) : HasPaths (.map entries)

/-- A leaf outside elements, and the way to it. -/
inductive LeafAt : Value → Path → Value → Prop
  | here {v : Value} (isLeaf : isLeaf v = true) : LeafAt v [] v
  | item {v item leaf : Value} {items : List Value} {i : ℕ} {p : Path}
      (isList : v.items? = some items) (isItem : items[i]? = some item) (next : LeafAt item p leaf) :
      LeafAt v (.index i :: p) leaf
  | entry {k v leaf : Value} {name : String} {entries : Mapping} {p : Path}
      (mem : (k, v) ∈ entries) (key : k.text? = some name) (next : LeafAt v p leaf) :
      LeafAt (.map entries) (.key name :: p) leaf

/-- A way through the first items of lists. -/
def IsFirst (p : Path) : Prop := ∀ i, .index i ∈ p → i = 0

/-- The path that marking writes for a way from a base. -/
def pathTo (base : String) : Path → String
  | [] => base
  | .key name :: p => pathTo (Path.join base (.str name)) p
  | .index _ :: p => pathTo (Path.item base) p

section LeafAt

variable {v leaf : Value} {p : Path}

theorem isFirst_nil : IsFirst [] := by simp [IsFirst]

@[simp] theorem isFirst_key {name : String} : IsFirst (.key name :: p) ↔ IsFirst p := by
  simp [IsFirst]

@[simp] theorem isFirst_index {i : ℕ} : IsFirst (.index i :: p) ↔ i = 0 ∧ IsFirst p := by
  simp [IsFirst]

/-- The item that stands in for all has paths if the list has. -/
theorem HasPaths.standIn_of_items? {items : List Value} (h : HasPaths v) (hitems : v.items? = some items) :
    HasPaths (standIn items) := by
  cases h with
  | leaf hleaf => simp [items?_of_isLeaf hleaf] at hitems
  | element helement => simp [items?_of_isElement helement] at hitems
  | list hlist first =>
    obtain rfl := Option.some.inj (hlist.symm.trans hitems)
    exact first
  | map => simp [Value.items?] at hitems

theorem HasPaths.keys_of_map {entries : Mapping} (h : HasPaths (.map entries)) :
    (∀ entry ∈ entries, ∃ name, entry.1.text? = some name ∧ Path.IsKey name) ∧
      (entries.map fun entry => entry.1.text?).Nodup ∧ ∀ entry ∈ entries, HasPaths entry.2 := by
  cases h with
  | leaf hleaf => simp [isLeaf] at hleaf
  | element helement => simp [Value.isElement] at helement
  | list hlist first => simp [Value.items?] at hlist
  | map keys nodup values => exact ⟨keys, nodup, values⟩

theorem HasPaths.nil : HasPaths (.map []) := .map (by simp) List.nodup_nil (by simp)

/-- An entry with a new name is put in front of a mapping. -/
theorem HasPaths.cons {k : Value} {name : String} {entries : Mapping} (hkey : k.text? = some name)
    (hname : Path.IsKey name) (hnew : some name ∉ entries.map fun entry => entry.1.text?)
    (hv : HasPaths v) (hentries : HasPaths (.map entries)) : HasPaths (.map ((k, v) :: entries)) := by
  obtain ⟨keys, nodup, values⟩ := hentries.keys_of_map
  refine .map (List.forall_mem_cons.mpr ⟨⟨name, hkey, hname⟩, keys⟩) ?_
    (List.forall_mem_cons.mpr ⟨hv, values⟩)
  refine List.nodup_cons.mpr ⟨?_, nodup⟩
  simpa only [hkey] using hnew

namespace LeafAt

/-- The only leaf of a leaf is the leaf itself. -/
theorem of_isLeaf (h : LeafAt v p leaf) (hleaf : Marker.isLeaf v = true) : p = [] ∧ leaf = v := by
  cases h with
  | here => exact ⟨rfl, rfl⟩
  | item isList => simp [items?_of_isLeaf hleaf] at isList
  | entry => simp [Marker.isLeaf] at hleaf

theorem isElement_eq_false (h : LeafAt v p leaf) : v.isElement = false := by
  cases h with
  | here isLeaf => exact isElement_of_isLeaf isLeaf
  | item isList =>
    by_contra helement
    simp [items?_of_isElement (by simpa using helement)] at isList
  | entry => rfl

/-- A leaf of a list is one of an item. -/
theorem of_items? {items : List Value} (h : LeafAt v p leaf) (hitems : v.items? = some items) :
    ∃ (i : ℕ) (item : Value) (q : Path), p = .index i :: q ∧ items[i]? = some item ∧
      LeafAt item q leaf := by
  cases h with
  | here isLeaf => simp [items?_of_isLeaf isLeaf] at hitems
  | item isList isItem next =>
    obtain rfl := Option.some.inj (isList.symm.trans hitems)
    exact ⟨_, _, _, rfl, isItem, next⟩
  | entry => simp [Value.items?] at hitems

/-- A leaf of a mapping is one of an entry. -/
theorem of_map {entries : Mapping} (h : LeafAt (.map entries) p leaf) :
    ∃ (k u : Value) (name : String) (q : Path), p = .key name :: q ∧ (k, u) ∈ entries ∧
      k.text? = some name ∧ LeafAt u q leaf := by
  cases h with
  | here isLeaf => simp [Marker.isLeaf] at isLeaf
  | item isList => simp [Value.items?] at isList
  | entry mem key next => exact ⟨_, _, _, _, rfl, mem, key, next⟩

/-- A leaf of the item that stands for all items is one of the first item. -/
theorem getElem?_standIn {items : List Value} (h : LeafAt (standIn items) p leaf) :
    items[0]? = some (standIn items) := by
  cases items with
  | cons item rest => rfl
  | nil =>
    have h : LeafAt (.map []) p leaf := h
    obtain ⟨k, u, name, q, -, hmem, -⟩ := of_map h
    simp at hmem

end LeafAt

/-- The first item stands for all items. -/
theorem standIn_of_getElem? {items : List Value} {item : Value} (h : items[0]? = some item) :
    standIn items = item := by
  rw [standIn, List.headD_eq_head?_getD, List.head?_eq_getElem?, h, Option.getD_some]

/-- The text that marking writes for a way is read as this way. -/
theorem read_pathTo (h : HasPaths v) (hleaf : LeafAt v p leaf) (hfirst : IsFirst p) {base : String}
    {q : Path} (hbase : Path.read base.toList = .ok q) :
    Path.read (pathTo base p).toList = .ok (q ++ p) := by
  induction hleaf generalizing base q with
  | here => simpa [pathTo] using hbase
  | item isList isItem next ih =>
    obtain ⟨rfl, hrest⟩ := isFirst_index.mp hfirst
    have hitem := standIn_of_getElem? isItem ▸ h.standIn_of_items? isList
    simpa [pathTo] using ih hitem hrest (Path.read_item hbase)
  | entry mem key next ih =>
    obtain ⟨keys, -, values⟩ := h.keys_of_map
    obtain ⟨name, hname, hkey⟩ := keys _ mem
    obtain rfl := Option.some.inj (key.symm.trans hname)
    simpa [pathTo] using
      ih (values _ mem) (isFirst_key.mp hfirst)
        (Path.read_join hbase (rfl : (Value.str _).text? = some _) hkey)

/-- Where no key is there twice, an entry is found by its key. -/
theorem at?_of_mem {entries : Mapping} {k : Value} {name : String}
    (hnodup : (entries.map fun entry => entry.1.text?).Nodup) (hmem : (k, v) ∈ entries)
    (hkey : k.text? = some name) : entries.at? name = some v := by
  induction entries with
  | nil => simp at hmem
  | cons entry rest ih =>
    obtain ⟨k', v'⟩ := entry
    obtain ⟨hnot, hrest⟩ := List.nodup_cons.mp hnodup
    rw [Mapping.at?, Mapping.get?]
    rcases List.mem_cons.mp hmem with heq | hmem
    · cases heq
      rw [if_pos (Value.sameKey_iff_text?.mpr hkey)]
    · have hne : ¬ k'.sameKey (.str name) = true := by
        intro hk
        exact hnot (List.mem_map.mpr ⟨_, hmem, hkey.trans (Value.sameKey_iff_text?.mp hk).symm⟩)
      rw [if_neg hne]
      exact ih hrest hmem

/-- Following the way to a leaf leads to the leaf. -/
theorem follow_of_leafAt (h : HasPaths v) (hleaf : LeafAt v p leaf) (hfirst : IsFirst p) :
    v.follow p = leaf := by
  induction hleaf with
  | here => rfl
  | @item v item leaf items i p hitems hat next ih =>
    obtain ⟨rfl, hrest⟩ := isFirst_index.mp hfirst
    have hitem := standIn_of_getElem? hat ▸ h.standIn_of_items? hitems
    have hstep : v.isNothing = false ∧ v.step (.index (0 : ℕ)) = item := by
      cases v <;> simp_all [Value.items?, Value.isNothing, Value.step, Value.itemAt]
    rw [Value.follow, hstep.1, hstep.2]
    exact ih hitem hrest
  | entry mem key next ih =>
    obtain ⟨-, nodup, values⟩ := h.keys_of_map
    have hat := at?_of_mem nodup mem key
    rw [Value.follow, Value.step, Value.entryAt]
    simp only [Value.isNothing, Segment.toValue]
    rw [← Mapping.at?, hat]
    exact ih (values _ mem) (isFirst_key.mp hfirst)

end LeafAt

/-! ### Bindings and leaves -/

section Runs

variable {shape : Shape}

mutual

/-- A registry gets bindings for leaves only. -/
theorem Marks.exists_leafAt_of_mem {path : String} {v w : Value} {r r' : Registry}
    (h : Marks shape path v r w r') (hv : HasPaths v) {entry : String × String}
    (hentry : entry ∈ r'.paths) :
    entry ∈ r.paths ∨ ∃ p leaf, LeafAt v p leaf ∧ IsFirst p ∧ entry.2 = pathTo path p :=
  match h with
  | .leaf isLeaf bind => by
    rcases Registry.paths_of_bind bind with ⟨hpaths, -⟩ | ⟨hpaths, -⟩
    · exact .inl (hpaths ▸ hentry)
    · rw [hpaths, List.mem_append, List.mem_singleton] at hentry
      exact hentry.imp id fun heq => ⟨[], v, .here isLeaf, isFirst_nil, congrArg Prod.snd heq⟩
  | .element _ => .inl hentry
  | .list isList first => by
    refine (first.exists_leafAt_of_mem (hv.standIn_of_items? isList) hentry).imp id ?_
    rintro ⟨p, leaf, hleaf, hfirst, hpath⟩
    exact ⟨_, leaf, .item isList hleaf.getElem?_standIn hleaf, isFirst_index.mpr ⟨rfl, hfirst⟩, hpath⟩
  | .map each => by
    obtain ⟨keys, -, values⟩ := hv.keys_of_map
    refine (each.exists_leafAt_of_mem (fun e he => (keys e he).imp fun _ h => h.1) values hentry).imp
      id ?_
    rintro ⟨k, u, name, p, leaf, hmem, hkey, hleaf, hfirst, hpath⟩
    exact ⟨_, leaf, .entry hmem hkey hleaf, isFirst_key.mpr hfirst, hpath⟩

theorem MarksEntries.exists_leafAt_of_mem {path : String} {entries copies : Mapping}
    {r r' : Registry} (h : MarksEntries shape path entries r copies r')
    (keys : ∀ e ∈ entries, ∃ name, e.1.text? = some name) (values : ∀ e ∈ entries, HasPaths e.2)
    {entry : String × String} (hentry : entry ∈ r'.paths) :
    entry ∈ r.paths ∨ ∃ k v name p leaf, (k, v) ∈ entries ∧ k.text? = some name ∧ LeafAt v p leaf ∧
      IsFirst p ∧ entry.2 = pathTo (Path.join path (.str name)) p :=
  match h with
  | .nil => .inl hentry
  | .cons value rest => by
    rcases rest.exists_leafAt_of_mem (fun e he => keys e (List.mem_cons_of_mem _ he))
      (fun e he => values e (List.mem_cons_of_mem _ he)) hentry with hbefore | hrest
    · refine (value.exists_leafAt_of_mem (values _ List.mem_cons_self) hbefore).imp id ?_
      rintro ⟨p, leaf, hleaf, hfirst, hpath⟩
      obtain ⟨name, hname⟩ := keys _ List.mem_cons_self
      exact ⟨_, _, name, p, leaf, List.mem_cons_self, hname, hleaf, hfirst,
        join_of_text? hname path ▸ hpath⟩
    · obtain ⟨k, v, name, p, leaf, hmem, hkey, hleaf, hfirst, hpath⟩ := hrest
      exact .inr ⟨k, v, name, p, leaf, List.mem_cons_of_mem _ hmem, hkey, hleaf, hfirst, hpath⟩

end

mutual

/-- Where the sample has a leaf, the copy has its token. -/
theorem Marks.leafAt_copy {path : String} {v w : Value} {r r' : Registry}
    (h : Marks shape path v r w r') {p : Path} {leaf : Value} (hleaf : LeafAt v p leaf)
    (hfirst : IsFirst p) : LeafAt w p (.str (shape.token (pathTo path p))) :=
  match h with
  | .leaf isLeaf _ => by
    obtain ⟨rfl, -⟩ := hleaf.of_isLeaf isLeaf
    exact .here rfl
  | .element isElement => by
    rw [hleaf.isElement_eq_false] at isElement
    cases isElement
  | .list isList first => by
    obtain ⟨i, item, q, rfl, hitem, hnext⟩ := hleaf.of_items? isList
    obtain ⟨rfl, hrest⟩ := isFirst_index.mp hfirst
    exact .item rfl rfl (first.leafAt_copy (standIn_of_getElem? hitem ▸ hnext) hrest)
  | .map each => by
    obtain ⟨k, u, name, q, rfl, hmem, hkey, hnext⟩ := hleaf.of_map
    obtain ⟨x, hx, hcopy⟩ := each.leafAt_copy hmem hkey hnext (isFirst_key.mp hfirst)
    exact .entry hx hkey hcopy

/-- The leaves of entries have their tokens in the copies. -/
theorem MarksEntries.leafAt_copy {path : String} {entries copies : Mapping} {r r' : Registry}
    (h : MarksEntries shape path entries r copies r') {k v leaf : Value} {name : String} {p : Path}
    (hmem : (k, v) ∈ entries) (hkey : k.text? = some name) (hleaf : LeafAt v p leaf)
    (hfirst : IsFirst p) :
    ∃ w, (k, w) ∈ copies ∧ LeafAt w p (.str (shape.token (pathTo (Path.join path (.str name)) p))) :=
  match h with
  | .nil => by simp at hmem
  | .cons value rest => by
    rcases List.mem_cons.mp hmem with heq | hmem
    · cases heq
      exact ⟨_, by simp, join_of_text? hkey path ▸ value.leafAt_copy hleaf hfirst⟩
    · obtain ⟨w, hw, hcopy⟩ := rest.leafAt_copy hmem hkey hleaf hfirst
      exact ⟨w, by simp [hw], hcopy⟩

end

mutual

/-- Every leaf of the copy is the token of its path, which is bound. -/
theorem Marks.mem_of_leafAt_copy {path : String} {v w : Value} {r r' : Registry}
    (h : Marks shape path v r w r') {p : Path} {leaf : Value} (hleaf : LeafAt w p leaf) :
    leaf = .str (shape.token (pathTo path p)) ∧ IsFirst p ∧
      (shape.token (pathTo path p), pathTo path p) ∈ r'.paths :=
  match h with
  | .leaf _ bind => by
    obtain ⟨rfl, rfl⟩ := hleaf.of_isLeaf rfl
    exact ⟨rfl, isFirst_nil, (Registry.extends_of_bind bind).2⟩
  | .element isElement => by
    rw [hleaf.isElement_eq_false] at isElement
    cases isElement
  | .list _ first => by
    obtain ⟨i, item, q, rfl, hitem, hnext⟩ := hleaf.of_items? rfl
    obtain ⟨rfl, rfl⟩ : i = 0 ∧ item = _ := by
      cases i with
      | zero => exact ⟨rfl, (Option.some.inj hitem).symm⟩
      | succ i => cases hitem
    obtain ⟨heq, hfirst, hmem⟩ := first.mem_of_leafAt_copy hnext
    exact ⟨heq, isFirst_index.mpr ⟨rfl, hfirst⟩, hmem⟩
  | .map each => by
    obtain ⟨k, u, name, q, rfl, hmem, hkey, hnext⟩ := hleaf.of_map
    obtain ⟨heq, hfirst, hbound⟩ := each.mem_of_leafAt_copy hmem hkey hnext
    exact ⟨heq, isFirst_key.mpr hfirst, hbound⟩

theorem MarksEntries.mem_of_leafAt_copy {path : String} {entries copies : Mapping} {r r' : Registry}
    (h : MarksEntries shape path entries r copies r') {k w leaf : Value} {name : String} {p : Path}
    (hmem : (k, w) ∈ copies) (hkey : k.text? = some name) (hleaf : LeafAt w p leaf) :
    leaf = .str (shape.token (pathTo (Path.join path (.str name)) p)) ∧ IsFirst p ∧
      (shape.token (pathTo (Path.join path (.str name)) p), pathTo (Path.join path (.str name)) p) ∈
        r'.paths :=
  match h with
  | .nil => by simp at hmem
  | .cons value rest => by
    rcases List.mem_cons.mp hmem with heq | hmem
    · cases heq
      obtain ⟨heq, hfirst, hbound⟩ := value.mem_of_leafAt_copy hleaf
      rw [join_of_text? hkey path] at heq hbound
      exact ⟨heq, hfirst, rest.grows.1 hbound⟩
    · exact rest.mem_of_leafAt_copy hmem hkey hleaf

end

mutual

/-- The leaves of the copy have paths as those of the sample. -/
theorem Marks.hasPaths {path : String} {v w : Value} {r r' : Registry}
    (h : Marks shape path v r w r') (hv : HasPaths v) : HasPaths w :=
  match h with
  | .leaf _ _ => .leaf rfl
  | .element isElement => .element isElement
  | .list isList first => .list rfl (first.hasPaths (hv.standIn_of_items? isList))
  | .map each => by
    obtain ⟨keys, nodup, values⟩ := hv.keys_of_map
    obtain ⟨hkeys, hvalues⟩ := each.hasPaths values
    refine .map (fun e he => ?_) ?_ hvalues
    · obtain ⟨e', he', hsame⟩ := List.mem_map.mp (hkeys ▸ List.mem_map_of_mem (f := Prod.fst) he)
      exact hsame ▸ keys e' he'
    · have htexts := congrArg (List.map Value.text?) hkeys
      rw [List.map_map, List.map_map] at htexts
      exact htexts ▸ nodup

theorem MarksEntries.hasPaths {path : String} {entries copies : Mapping} {r r' : Registry}
    (h : MarksEntries shape path entries r copies r') (values : ∀ e ∈ entries, HasPaths e.2) :
    entries.map Prod.fst = copies.map Prod.fst ∧ ∀ e ∈ copies, HasPaths e.2 :=
  match h with
  | .nil => ⟨rfl, by simp⟩
  | .cons value rest => by
    obtain ⟨hkeys, hvalues⟩ := rest.hasPaths fun e he => values e (List.mem_cons_of_mem _ he)
    refine ⟨by rw [List.map_cons, List.map_cons, hkeys], fun e he => ?_⟩
    rcases List.mem_cons.mp he with rfl | he
    · exact value.hasPaths (values _ List.mem_cons_self)
    · exact hvalues e he

end

mutual

/-- Marking a copy again changes nothing. -/
theorem Marks.mark_copy {path : String} {v w : Value} {r r' s : Registry}
    (h : Marks shape path v r w r') (hextends : r'.Extends s) (hs : s.IsSound shape) :
    mark shape path w s = (.ok w, s) :=
  match h with
  | .leaf _ bind => by
    have hbind := hs.bind_of_mem (hextends (Registry.extends_of_bind bind).2)
    rw [mark_of_isLeaf rfl, markLeaf, bind_eq_ok]
    exact ⟨(), s, by rw [bindToken, hbind], rfl⟩
  | .element isElement => by
    rw [mark_of_isElement isElement]
    rfl
  | .list _ first => by
    rw [mark_of_items? rfl, bind_eq_ok]
    exact ⟨_, s, first.mark_copy hextends hs, rfl⟩
  | .map each => by
    rw [mark, bind_eq_ok]
    exact ⟨_, s, each.mark_copy hextends hs, rfl⟩

theorem MarksEntries.mark_copy {path : String} {entries copies : Mapping} {r r' s : Registry}
    (h : MarksEntries shape path entries r copies r') (hextends : r'.Extends s)
    (hs : s.IsSound shape) : markEntries shape path copies s = (.ok copies, s) :=
  match h with
  | .nil => rfl
  | .cons value rest => by
    rw [markEntries, bind_eq_ok]
    refine ⟨_, s, value.mark_copy (rest.grows.1.trans hextends) hs, ?_⟩
    rw [bind_eq_ok]
    exact ⟨_, s, rest.mark_copy hextends hs, rfl⟩

end

/-- **Paths of leaves.** In the marked copy that is made with an empty registry every leaf is a bound
token, at the path that it is bound to. Every bound token is the token of its path, and the registry
knows either by the other; the path leads to the token in the copy, and to a leaf in the sample, by a
way through the first items of lists. Marking the copy again changes neither it nor the registry. -/
theorem mark_sample {sample copy : Value} {r : Registry} (h : HasPaths sample)
    (hmark : mark shape "" sample {} = (.ok copy, r)) :
    (∀ p leaf, LeafAt copy p leaf → ∃ token path, leaf = .str token ∧ (token, path) ∈ r.paths ∧
      Path.read path.toList = .ok p) ∧
    (∀ token path, (token, path) ∈ r.paths →
      token = shape.token path ∧ r.tokenFor? path = some token ∧ r.pathFor? token = some path ∧
      copy.lookup path.toList = .ok (.str token) ∧
      ∃ p leaf, Path.read path.toList = .ok p ∧ IsFirst p ∧ LeafAt sample p leaf ∧
        sample.lookup path.toList = .ok leaf) ∧
    mark shape "" copy r = (.ok copy, r) := by
  have hrun := marks_of_mark "" sample hmark
  have hcopy := hrun.hasPaths h
  have hr := hrun.grows.2 (Registry.isSound_empty shape)
  have hbase : Path.read "".toList = .ok [] := rfl
  refine ⟨fun p leaf hleaf => ?_, fun token path hmem => ?_, hrun.mark_copy (.refl r) hr⟩
  · obtain ⟨heq, hfirst, hbound⟩ := hrun.mem_of_leafAt_copy hleaf
    exact ⟨_, _, heq, hbound, read_pathTo hcopy hleaf hfirst hbase⟩
  · obtain hnone | ⟨p, leaf, hleaf, hfirst, rfl⟩ := hrun.exists_leafAt_of_mem h hmem
    · simp at hnone
    have htoken : token = shape.token (pathTo "" p) := hr.eq_token _ hmem
    have hread := read_pathTo h hleaf hfirst hbase
    rw [List.nil_append] at hread
    have hlookup {v u : Value} (hv : HasPaths v) (hu : LeafAt v p u) :
        v.lookup (pathTo "" p).toList = .ok u := by
      rw [Value.lookup, hread, ← follow_of_leafAt hv hu hfirst]
      rfl
    exact ⟨htoken, hr.tokenFor?_of_mem hmem, hr.pathFor?_of_mem hmem,
      hlookup hcopy (htoken ▸ hrun.leafAt_copy hleaf hfirst), p, leaf, hread, hfirst, hleaf,
      hlookup h hleaf⟩

/-- A sheet with a title, rows of cells, no notes, and a badge that is an element. -/
def sheet : Value :=
  .map [(.str "title", .str "Sums"),
    (.str "rows", .list [.tuple [.map [(.raw "sum", .int 3)], .null], .list []]),
    (.str "notes", .tuple []), (.str "badge", .element (.str "b") [] [])]

/-- The marked copy of the sheet. -/
def markedSheet : Value :=
  .map [(.str "title", .str "__PROP_title__"),
    (.str "rows", .list [.list [.map [(.raw "sum", .str "__PROP_rows__0___0__sum__")]]]),
    (.str "notes", .list [.map []]), (.str "badge", .element (.str "b") [] [])]

/-- What marking the sheet binds. -/
def sheetBindings : Registry :=
  ⟨[("__PROP_title__", "title"), ("__PROP_rows__0___0__sum__", "rows.[0].[0].sum")],
    [("title", "__PROP_title__"), ("rows.[0].[0].sum", "__PROP_rows__0___0__sum__")]⟩

/-- The cell in the first row of the sheet. -/
theorem mark_sheet :
    mark {} "" sheet {} = (.ok markedSheet, sheetBindings) ∧
      mark {} "" markedSheet sheetBindings = (.ok markedSheet, sheetBindings) ∧
      markedSheet.lookup "rows.[0].[0].sum".toList = .ok (.str "__PROP_rows__0___0__sum__") := by
  have hrow : HasPaths (.tuple [.map [(.raw "sum", .int 3)], .null]) :=
    .list rfl (.cons rfl (by decide) (by decide) (.leaf rfl) .nil)
  have hpaths : HasPaths sheet :=
    .cons rfl (by decide) (by decide) (.leaf rfl) <|
      .cons rfl (by decide) (by decide) (.list rfl hrow) <|
        .cons rfl (by decide) (by decide) (.list rfl .nil) <|
          .cons rfl (by decide) (by decide) (.element rfl) .nil
  have hmark : mark {} "" sheet {} = (.ok markedSheet, sheetBindings) := by rfl
  obtain ⟨-, hbound, hagain⟩ := mark_sample hpaths hmark
  obtain ⟨-, -, -, hlookup, -⟩ := hbound "__PROP_rows__0___0__sum__" "rows.[0].[0].sum" (by decide)
  exact ⟨hmark, hagain, hlookup⟩

end Runs

end Marker

end Stencil
