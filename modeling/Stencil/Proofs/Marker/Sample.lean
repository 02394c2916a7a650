import Mathlib.Data.List.Nodup
import Stencil.Marker.Sample
import Stencil.Proofs.Value.Mapping

/-!
# Marked samples

A run of marking that succeeds is a tree of runs on the parts of the sample (`Marks`), and what holds of
marked copies is shown by induction on it. Marking only adds to the registry, and what is in the registry
at the end is sound: every token is bound once, and is the token of its path (`Marks.grows`).

The main statement is `leads_mark`: **where keys lead through the first items of lists to a leaf, they
lead to the token of the leaf in the marked copy**, and the token is bound to the path that goes
through the items that stand for all items of these lists.
-/

namespace Stencil.Marker

/-! ### Binding -/

/-- Putting what is there already changes nothing. -/
theorem putName_of_lookup_eq_some {name value : String} {entries : List (String × String)}
    (h : entries.lookup name = some value) : putName name value entries = entries := by
  induction entries with
  | nil => simp at h
  | cons entry rest ih =>
    obtain ⟨n, v⟩ := entry
    by_cases hn : n = name
    · subst hn
      obtain rfl : v = value := by simpa using h
      simp [putName]
    · have hne : (name == n) = false := by simpa using Ne.symm hn
      rw [List.lookup_cons, hne] at h
      rw [putName, if_neg hn, ih h]

/-- A new name goes to the end. -/
theorem putName_of_lookup_eq_none {name : String} (value : String)
    {entries : List (String × String)} (h : entries.lookup name = none) :
    putName name value entries = entries ++ [(name, value)] := by
  induction entries with
  | nil => rfl
  | cons entry rest ih =>
    obtain ⟨n, v⟩ := entry
    by_cases hn : n = name
    · simp [hn] at h
    · have hne : (name == n) = false := by simpa using Ne.symm hn
      rw [List.lookup_cons, hne] at h
      rw [putName, if_neg hn, ih h, List.cons_append]

/-- With every name once, an entry is what its name looks up. -/
theorem lookup_eq_some_of_mem {name value : String} {entries : List (String × String)}
    (hnodup : (entries.map Prod.fst).Nodup) (h : (name, value) ∈ entries) :
    entries.lookup name = some value := by
  induction entries with
  | nil => simp at h
  | cons entry rest ih =>
    obtain ⟨n, v⟩ := entry
    obtain ⟨hnot, hrest⟩ := List.nodup_cons.mp hnodup
    rcases List.mem_cons.mp h with heq | hmem
    · cases heq
      simp
    · have hne : (name == n) = false := by
        refine beq_false_of_ne ?_
        rintro rfl
        exact hnot (List.mem_map.mpr ⟨_, hmem, rfl⟩)
      rw [List.lookup_cons, hne]
      exact ih hrest hmem

namespace Registry

variable {r r' : Registry}

/-- Whatever is bound in one registry is bound in another one. -/
def Extends (r r' : Registry) : Prop := r.paths ⊆ r'.paths

/-- Every registry extends itself. -/
theorem Extends.refl (r : Registry) : r.Extends r := List.Subset.refl _

/-- Extensions of extensions are extensions. -/
theorem Extends.trans {r'' : Registry} (h : r.Extends r') (h' : r'.Extends r'') : r.Extends r'' :=
  List.Subset.trans h h'

/-- A registry in which every token is bound once, to a path that it is the token of, and every path
has its token. -/
structure IsSound (shape : Shape) (r : Registry) : Prop where
  nodup : (r.paths.map Prod.fst).Nodup
  eq_token : ∀ entry ∈ r.paths, entry.1 = shape.token entry.2
  tokens_eq : r.tokens = r.paths.map Prod.swap

/-- The empty registry is sound. -/
theorem isSound_empty (shape : Shape) : IsSound shape {} := ⟨List.nodup_nil, by simp, rfl⟩

/-- A token is bound only if it is new or bound to the same path already. -/
theorem eq_put_of_bind {token path : String} (h : r.bind token path = .ok r') :
    r' = r.put token path ∧ (r.pathFor? token = some path ∨ r.pathFor? token = none) := by
  unfold Registry.bind at h
  cases hbound : r.pathFor? token with
  | some bound =>
    rw [hbound] at h
    by_cases hsame : bound = path
    · subst hsame
      exact ⟨by simpa using h.symm, .inl rfl⟩
    · simp [hsame] at h
  | none =>
    rw [hbound] at h
    exact ⟨by simpa using h.symm, .inr rfl⟩

/-- A token that is bound already stays where it is, and any other one comes last. -/
theorem paths_of_bind {token path : String} (h : r.bind token path = .ok r') :
    (r'.paths = r.paths ∧ (token, path) ∈ r.paths) ∨
      (r'.paths = r.paths ++ [(token, path)] ∧ token ∉ r.paths.map Prod.fst) := by
  obtain ⟨rfl, hbound | hbound⟩ := eq_put_of_bind h
  · refine .inl ⟨putName_of_lookup_eq_some hbound, ?_⟩
    obtain ⟨before, after, hsplit, -⟩ := List.lookup_eq_some_iff.mp hbound
    simp [hsplit]
  · refine .inr ⟨putName_of_lookup_eq_none path hbound, ?_⟩
    rintro hmem
    obtain ⟨entry, hentry, rfl⟩ := List.mem_map.mp hmem
    simpa using List.lookup_eq_none_iff.mp hbound entry hentry

/-- Binding keeps all bindings and has its own. -/
theorem extends_of_bind {token path : String} (h : r.bind token path = .ok r') :
    r.Extends r' ∧ (token, path) ∈ r'.paths := by
  rcases paths_of_bind h with ⟨hpaths, hmem⟩ | ⟨hpaths, -⟩
  · unfold Extends
    rw [hpaths]
    exact ⟨List.Subset.refl _, hmem⟩
  · unfold Extends
    rw [hpaths]
    exact ⟨List.subset_append_left _ _, by simp⟩

namespace IsSound

variable {shape : Shape}

/-- In a sound registry, every binding is found by its token. -/
theorem pathFor?_of_mem (hr : r.IsSound shape) {token path : String} (h : (token, path) ∈ r.paths) :
    r.pathFor? token = some path := lookup_eq_some_of_mem hr.nodup h

/-- No path has two tokens. -/
theorem nodup_tokens (hr : r.IsSound shape) : (r.tokens.map Prod.fst).Nodup := by
  have hmap : r.paths.map Prod.fst = (r.tokens.map Prod.fst).map shape.token := by
    rw [hr.tokens_eq, List.map_map, List.map_map]
    exact List.map_congr_left hr.eq_token
  exact List.Nodup.of_map shape.token (hmap ▸ hr.nodup)

/-- In a sound registry, every binding is found by its path. -/
theorem tokenFor?_of_mem (hr : r.IsSound shape) {token path : String} (h : (token, path) ∈ r.paths) :
    r.tokenFor? path = some token :=
  lookup_eq_some_of_mem hr.nodup_tokens (by rw [hr.tokens_eq]; exact List.mem_map_of_mem h)

/-- Binding a token again that is bound to the path changes nothing. -/
theorem bind_of_mem (hr : r.IsSound shape) {token path : String} (h : (token, path) ∈ r.paths) :
    r.bind token path = .ok r := by
  have hput : r.put token path = r := by
    rw [put, putName_of_lookup_eq_some (hr.pathFor?_of_mem h),
      putName_of_lookup_eq_some (hr.tokenFor?_of_mem h)]
  rw [Registry.bind, hr.pathFor?_of_mem h]
  simp [hput]

/-- Binding the token of a path keeps a registry sound. -/
theorem bind {path : String} (hr : r.IsSound shape) (h : r.bind (shape.token path) path = .ok r') :
    r'.IsSound shape := by
  -- either the pair is bound already and nothing changes, or the token is new
  rcases paths_of_bind h with ⟨-, hmem⟩ | ⟨hpaths, hnew⟩
  · rw [hr.bind_of_mem hmem] at h
    cases h
    exact hr
  · refine ⟨?_, fun entry hentry => ?_, ?_⟩
    · rw [hpaths, List.map_append, List.nodup_append]
      refine ⟨hr.nodup, by simp, ?_⟩
      rintro bound hbound other hother rfl
      obtain rfl : bound = shape.token path := by simpa using hother
      exact hnew hbound
    · rw [hpaths, List.mem_append, List.mem_singleton] at hentry
      rcases hentry with hentry | rfl
      · exact hr.eq_token entry hentry
      · rfl
    · have hpath : r.tokens.lookup path = none := by
        refine List.lookup_eq_none_iff.mpr fun entry hentry => ?_
        rw [hr.tokens_eq] at hentry
        obtain ⟨⟨token, bound⟩, hmem, rfl⟩ := List.mem_map.mp hentry
        refine bne_iff_ne.mpr fun hsame => hnew ?_
        obtain rfl : path = bound := hsame
        exact hr.eq_token _ hmem ▸ List.mem_map_of_mem hmem
      obtain ⟨hput, -⟩ := eq_put_of_bind h
      rw [hpaths, hput, put, putName_of_lookup_eq_none _ hpath, hr.tokens_eq, List.map_append]
      rfl

end IsSound

end Registry

/-! ### Marking -/

/-- Marking in two steps succeeds exactly if both steps do. -/
theorem bind_eq_ok {α β : Type} {x : Marking α} {f : α → Marking β} {r r' : Registry} {b : β} :
    (x >>= f) r = (.ok b, r') ↔ ∃ a r₁, x r = (.ok a, r₁) ∧ f a r₁ = (.ok b, r') := by
  rw [bind_apply]
  rcases x r with ⟨failure | a, r₁⟩
  · constructor
    · intro h
      cases h
    · rintro ⟨a, r₂, h, -⟩
      cases h
  · constructor
    · exact fun h => ⟨a, r₁, rfl, h⟩
    · rintro ⟨a', r₂, h, h'⟩
      cases h
      exact h'

theorem pure_eq_ok {α : Type} {a b : α} {r r' : Registry} :
    (pure a : Marking α) r = (.ok b, r') ↔ a = b ∧ r = r' := by
  constructor
  · intro h
    cases h
    exact ⟨rfl, rfl⟩
  · rintro ⟨rfl, rfl⟩
    rfl

/-- The token of a leaf is bound to its path. -/
theorem markLeaf_eq_ok {shape : Shape} {path : String} {r r' : Registry} {v : Value}
    (h : markLeaf shape path r = (.ok v, r')) :
    v = .str (shape.token path) ∧ r.bind (shape.token path) path = .ok r' := by
  obtain ⟨u, r₁, hbind, hpure⟩ := bind_eq_ok.mp h
  obtain ⟨rfl, rfl⟩ := pure_eq_ok.mp hpure
  refine ⟨rfl, ?_⟩
  unfold bindToken at hbind
  cases hr : r.bind (shape.token path) path with
  | error failure =>
    rw [hr] at hbind
    cases hbind
  | ok r₂ =>
    rw [hr] at hbind
    cases hbind
    rfl

/-- A value that marking replaces by a token. -/
def isLeaf : Value → Bool
  | .list _ | .tuple _ | .map _ | .element _ _ _ => false
  | .object attributes => !Value.marksElement attributes
  | _ => true

section Kinds

variable {v : Value}

/-- A leaf has no items. -/
theorem items?_of_isLeaf (h : isLeaf v = true) : v.items? = none := by
  cases v <;> first | rfl | cases h

theorem isElement_of_isLeaf (h : isLeaf v = true) : v.isElement = false := by
  cases v with
  | object attributes => simpa [isLeaf, Value.isElement] using h
  | element type props children => cases h
  | _ => rfl

/-- An element has no items. -/
theorem items?_of_isElement (h : v.isElement = true) : v.items? = none := by
  cases v <;> first | rfl | cases h

end Kinds

/-- The item that stands for all items of a list: the first one, or an empty mapping. -/
def standIn (items : List Value) : Value := items.headD (.map [])

/-- A leaf is marked by its token. -/
theorem mark_of_isLeaf {shape : Shape} {path : String} {v : Value} (h : isLeaf v = true) :
    mark shape path v = markLeaf shape path := by
  cases v with
  | list items => simp [isLeaf] at h
  | tuple items => simp [isLeaf] at h
  | map entries => simp [isLeaf] at h
  | element type props children => simp [isLeaf] at h
  | object attributes =>
    have hmarks : Value.marksElement attributes = false := by simpa [isLeaf] using h
    rw [mark, hmarks]
    rfl
  | _ => simp only [mark]

/-- An element stays as it is. -/
theorem mark_of_isElement {shape : Shape} {path : String} {v : Value} (h : v.isElement = true) :
    mark shape path v = pure v := by
  cases v with
  | element type props children => rw [mark]
  | object attributes =>
    have hmarks : Value.marksElement attributes = true := h
    rw [mark, if_pos hmarks]
  | _ => simp [Value.isElement] at h

/-- Marking the first item is marking the one that stands in for all. -/
theorem markFirst_eq (shape : Shape) (path : String) (items : List Value) :
    markFirst shape path items = mark shape path (standIn items) := by
  cases items with
  | nil => rw [markFirst, standIn, List.headD_nil, mark, markEntries, pure_bind]
  | cons v rest => rw [markFirst, standIn, List.headD_cons]

/-- A list is marked by the one item that stands in for all. -/
theorem mark_of_items? {shape : Shape} {path : String} {v : Value} {items : List Value}
    (h : v.items? = some items) :
    mark shape path v = (do pure (.list [← mark shape (Path.item path) (standIn items)])) := by
  have hlist : v = .list items ∨ v = .tuple items := by
    cases v <;> simp_all [Value.items?]
  rcases hlist with rfl | rfl <;> rw [mark, markFirst_eq]

/-! ### Runs of marking -/

variable {shape : Shape}

mutual

/-- A run of marking that succeeds: the path, the value, the registry before, the copy, and the
registry after. -/
inductive Marks (shape : Shape) : String → Value → Registry → Value → Registry → Prop
  | leaf {path : String} {v : Value} {r r' : Registry} (isLeaf : isLeaf v = true)
      (bind : r.bind (shape.token path) path = .ok r') :
      Marks shape path v r (.str (shape.token path)) r'
  | element {path : String} {v : Value} {r : Registry} (isElement : v.isElement = true) :
      Marks shape path v r v r
  | list {path : String} {v w : Value} {items : List Value} {r r' : Registry}
      (isList : v.items? = some items)
      (first : Marks shape (Path.item path) (standIn items) r w r') :
      Marks shape path v r (.list [w]) r'
  | map {path : String} {entries copies : Mapping} {r r' : Registry}
      (each : MarksEntries shape path entries r copies r') :
      Marks shape path (.map entries) r (.map copies) r'

/-- A run of marking on the entries of the mapping at a path. -/
inductive MarksEntries (shape : Shape) : String → Mapping → Registry → Mapping → Registry → Prop
  | nil {path : String} {r : Registry} : MarksEntries shape path [] r [] r
  | cons {path : String} {k v w : Value} {entries copies : Mapping} {r r₁ r' : Registry}
      (value : Marks shape (Path.join path k) v r w r₁)
      (rest : MarksEntries shape path entries r₁ copies r') :
      MarksEntries shape path ((k, v) :: entries) r ((k, w) :: copies) r'

end

/-- Marking a leaf is one case of the marking relation. -/
private theorem marks_of_leaf {path : String} {v w : Value} {r r' : Registry} (hleaf : isLeaf v = true)
    (h : mark shape path v r = (.ok w, r')) : Marks shape path v r w r' := by
  rw [mark_of_isLeaf hleaf] at h
  obtain ⟨rfl, hbind⟩ := markLeaf_eq_ok h
  exact .leaf hleaf hbind

private theorem marks_of_element {path : String} {v w : Value} {r r' : Registry}
    (helement : v.isElement = true) (h : mark shape path v r = (.ok w, r')) :
    Marks shape path v r w r' := by
  rw [mark_of_isElement helement] at h
  obtain ⟨rfl, rfl⟩ := pure_eq_ok.mp h
  exact .element helement

mutual

/-- Where marking succeeds there is a run of it. -/
theorem marks_of_mark (path : String) : (v : Value) → ∀ {r r' : Registry} {w : Value},
    mark shape path v r = (.ok w, r') → Marks shape path v r w r'
  | .list items | .tuple items => fun h => by
    rw [mark] at h
    obtain ⟨w, r₁, hfirst, hpure⟩ := bind_eq_ok.mp h
    obtain ⟨rfl, rfl⟩ := pure_eq_ok.mp hpure
    exact .list rfl (marks_of_markFirst _ items hfirst)
  | .map entries => fun h => by
    rw [mark] at h
    obtain ⟨copies, r₁, hentries, hpure⟩ := bind_eq_ok.mp h
    obtain ⟨rfl, rfl⟩ := pure_eq_ok.mp hpure
    exact .map (marks_of_markEntries path entries hentries)
  | .element _ _ _ => marks_of_element rfl
  | .object attributes => by
    cases hmarks : Value.marksElement attributes with
    | true => exact marks_of_element hmarks
    | false => exact marks_of_leaf (by simp [isLeaf, hmarks])
  | .null | .absent | .bool _ | .int _ | .float _ | .str _ | .raw _ | .bytes _ | .date _ | .moment _
  | .set _ | .generator _ _ | .closure _ _ _ _ | .fragmentType | .helper _ => marks_of_leaf rfl

/-- Marking the first item of a list, which may have none. -/
theorem marks_of_markFirst (path : String) : (items : List Value) → ∀ {r r' : Registry} {w : Value},
    markFirst shape path items r = (.ok w, r') → Marks shape path (standIn items) r w r'
  | [] => fun h => by
    rw [markFirst] at h
    obtain ⟨rfl, rfl⟩ := pure_eq_ok.mp h
    exact .map .nil
  | v :: _ => fun h => by
    rw [markFirst] at h
    exact marks_of_mark path v h

/-- Marking the entries of a mapping, in their order. -/
theorem marks_of_markEntries (path : String) : (entries : List (Value × Value)) →
    ∀ {r r' : Registry} {copies : Mapping}, markEntries shape path entries r = (.ok copies, r') →
      MarksEntries shape path entries r copies r'
  | [] => fun h => by
    rw [markEntries] at h
    obtain ⟨rfl, rfl⟩ := pure_eq_ok.mp h
    exact .nil
  | (k, v) :: rest => fun h => by
    rw [markEntries] at h
    obtain ⟨w, r₁, hmark, h⟩ := bind_eq_ok.mp h
    obtain ⟨ws, r₂, hrest, hpure⟩ := bind_eq_ok.mp h
    obtain ⟨rfl, rfl⟩ := pure_eq_ok.mp hpure
    exact .cons (marks_of_mark _ v hmark) (marks_of_markEntries path rest hrest)

end

mutual

/-- **Growth.** Marking only adds to the registry, and keeps it sound. -/
theorem Marks.grows {path : String} {v w : Value} {r r' : Registry} (h : Marks shape path v r w r') :
    r.Extends r' ∧ (r.IsSound shape → r'.IsSound shape) :=
  match h with
  | .leaf _ bind => ⟨(Registry.extends_of_bind bind).1, fun hr => hr.bind bind⟩
  | .element _ => ⟨.refl _, id⟩
  | .list _ first => first.grows
  | .map each => each.grows

/-- Marking entries extends the registry and keeps it sound. -/
theorem MarksEntries.grows {path : String} {entries copies : Mapping} {r r' : Registry}
    (h : MarksEntries shape path entries r copies r') :
    r.Extends r' ∧ (r.IsSound shape → r'.IsSound shape) :=
  match h with
  | .nil => ⟨.refl _, id⟩
  | .cons value rest => ⟨value.grows.1.trans rest.grows.1, rest.grows.2 ∘ value.grows.2⟩

end

namespace Marks

variable {path : String} {v w : Value} {r r' : Registry}

/-- The copy of a leaf is its token, which is bound to its path. -/
theorem of_isLeaf (h : Marks shape path v r w r') (hleaf : Marker.isLeaf v = true) :
    w = .str (shape.token path) ∧ r.bind (shape.token path) path = .ok r' := by
  cases h with
  | leaf _ bind => exact ⟨rfl, bind⟩
  | element helement => simp [isElement_of_isLeaf hleaf] at helement
  | list isList first => simp [items?_of_isLeaf hleaf] at isList
  | map each => simp [Marker.isLeaf] at hleaf

/-- The copy of a list has one item, the copy of the one that stands in for all. -/
theorem of_items? {items : List Value} (h : Marks shape path v r w r') (hitems : v.items? = some items) :
    ∃ x, w = .list [x] ∧ Marks shape (Path.item path) (standIn items) r x r' := by
  cases h with
  | leaf hleaf => simp [items?_of_isLeaf hleaf] at hitems
  | element helement => simp [items?_of_isElement helement] at hitems
  | list isList first =>
    obtain rfl := Option.some.inj (isList.symm.trans hitems)
    exact ⟨_, rfl, first⟩
  | map each => simp [Value.items?] at hitems

/-- The copy of a mapping is a mapping of copies. -/
theorem of_map {entries : Mapping} (h : Marks shape path (.map entries) r w r') :
    ∃ copies, w = .map copies ∧ MarksEntries shape path entries r copies r' := by
  cases h with
  | leaf hleaf => simp [Marker.isLeaf] at hleaf
  | element helement => simp [Value.isElement] at helement
  | list isList first => simp [Value.items?] at isList
  | map each => exact ⟨_, rfl, each⟩

end Marks

/-! ### Ways through first items -/

/-- The first item of the list at the first key has the second key, and so on; the item that is reached at
the end has a value with a property at the name `leaf`. -/
inductive Leads (leaf : String) (p : Value → Prop) : List String → Value → Prop
  | leaf {entries : Mapping} {v : Value} (found : entries.at? leaf = some v) (holds : p v) :
      Leads leaf p [] (.map entries)
  | list {key : String} {keys : List String} {entries : Mapping} {v item : Value}
      {rest : List Value} (found : entries.at? key = some v) (items : v.items? = some (item :: rest))
      (next : Leads leaf p keys item) : Leads leaf p (key :: keys) (.map entries)

/-- Keys lead on from a mapping only. -/
theorem Leads.exists_eq_map {leaf : String} {p : Value → Prop} {keys : List String} {v : Value}
    (h : Leads leaf p keys v) : ∃ entries, v = .map entries := by
  cases h with
  | leaf => exact ⟨_, rfl⟩
  | list => exact ⟨_, rfl⟩

/-- The path that keys lead to from a base. -/
def leafPath (leaf : String) (base : String) : List String → String
  | [] => Path.join base (.str leaf)
  | key :: keys => leafPath leaf (Path.item (Path.join base (.str key))) keys

theorem join_of_text? {k : Value} {name : String} (h : k.text? = some name) (base : String) :
    Path.join base k = Path.join base (.str name) := by
  have hstr : (Value.str name).displayString = name := Value.displayString_of_text? rfl
  rw [Path.join, Path.join, Value.displayString_of_text? h, hstr]

/-- The entry at a name is marked at its path. -/
theorem MarksEntries.exists_marks_of_at? {path : String} {entries copies : Mapping}
    {r r' : Registry} (h : MarksEntries shape path entries r copies r') {name : String} {v : Value}
    (hv : entries.at? name = some v) :
    ∃ w r₁ r₂, Marks shape (Path.join path (.str name)) v r₁ w r₂ ∧ copies.at? name = some w ∧
      r₂.Extends r' := by
  induction entries generalizing copies r with
  | nil => simp [Mapping.at?, Mapping.get?] at hv
  | cons entry rest ih =>
    cases h with
    | @cons _ k u w _ ws _ r₁ _ value each =>
      rw [Mapping.at?, Mapping.get?] at hv
      by_cases hk : k.sameKey (.str name) = true
      · rw [if_pos hk] at hv
        obtain rfl : u = v := by simpa using hv
        have hpath := join_of_text? (Value.sameKey_iff_text?.mp hk) path
        exact ⟨w, r, r₁, hpath ▸ value, by simp [Mapping.at?, Mapping.get?, hk], each.grows.1⟩
      · rw [if_neg hk] at hv
        obtain ⟨w', s, s', hmarks, hfound, hextends⟩ := ih each hv
        exact ⟨w', s, s', hmarks, by simpa [Mapping.at?, Mapping.get?, hk] using hfound, hextends⟩

/-- **Marked copies.** Where keys lead to a leaf, they lead to its token in the marked copy, and the
token is bound to the path of the leaf. -/
theorem leads_mark {leaf : String} {keys : List String} {v : Value}
    (h : Leads leaf (isLeaf · = true) keys v) {base : String} {r r' : Registry} {w : Value}
    (hmarks : Marks shape base v r w r') :
    Leads leaf (· = .str (shape.token (leafPath leaf base keys))) keys w ∧
      (shape.token (leafPath leaf base keys), leafPath leaf base keys) ∈ r'.paths := by
  induction h generalizing base r r' w with
  | leaf found holds =>
    obtain ⟨copies, rfl, each⟩ := hmarks.of_map
    obtain ⟨u, s, s', hu, hfound, hextends⟩ := each.exists_marks_of_at? found
    obtain ⟨rfl, hbind⟩ := hu.of_isLeaf holds
    exact ⟨.leaf hfound rfl, hextends (Registry.extends_of_bind hbind).2⟩
  | list found items next ih =>
    obtain ⟨copies, rfl, each⟩ := hmarks.of_map
    obtain ⟨u, s, s', hu, hfound, hextends⟩ := each.exists_marks_of_at? found
    obtain ⟨x, rfl, hx⟩ := hu.of_items? items
    obtain ⟨hleads, hmem⟩ := ih hx
    exact ⟨.list hfound rfl hleads, hextends hmem⟩

end Stencil.Marker
