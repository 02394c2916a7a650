import Mathlib.Data.List.Nodup
import Stencil.Proofs.Component.Corresponds

/-!
# Trees without nested children

Nested lists and tuples of children are dissolved, and so are some of the generators; nothing and truth
values are left out. This is done everywhere in a tree: in the children of all its elements but those of
components, which are called with their children as they are, of objects that are marked as elements, and in
the value of a reference.
`Value.dissolved` is what a node comes to in this way, together with the generators that are dissolved.

How children are nested is what is lost: two trees are the same up to that if they come to the same nodes.
-/

namespace Stencil

/-- What some nodes come to when nested children are dissolved: the flat sequence that they are read as, in
all elements. -/
structure Dissolved where
  /-- The nodes that are left. -/
  nodes : List Value := []
  /-- The generators that are dissolved among the nodes. -/
  drawn : List ℕ := []
  /-- The generators that are dissolved inside the nodes. -/
  inside : List ℕ := []
  /-- Those of them that are in the bodies of loops. -/
  inLoops : List ℕ := []

namespace Dissolved

/-- All generators that are dissolved. -/
def own (d : Dissolved) : List ℕ := d.drawn ++ d.inside

/-- Some nodes behind others. -/
def append (d e : Dissolved) : Dissolved :=
  ⟨d.nodes ++ e.nodes, d.drawn ++ e.drawn, d.inside ++ e.inside, d.inLoops ++ e.inLoops⟩

/-- A node that others are inside of. -/
def around (d : Dissolved) (node : Value) : Dissolved := ⟨[node], [], d.own, d.inLoops⟩

/-- Nodes as one item. -/
def asItem (d : Dissolved) : Dissolved := { d with nodes := [.tuple d.nodes] }

/-- Nodes in the place of a value. -/
def inPlaceOf (d : Dissolved) (v : Value) : Value := if v.isNothing then v else .tuple d.nodes

end Dissolved

namespace Value

/-- The children of an object that is marked as an element. -/
def givenChildren (attributes : List (String × Value)) : Value :=
  (attributes.lookup "children").getD .null

/-- What is given as children is no larger than the attributes it is given in. -/
theorem sizeOf_givenChildren_le (attributes : List (String × Value)) :
    sizeOf (givenChildren attributes) ≤ sizeOf attributes := by
  unfold givenChildren
  cases h : attributes.lookup "children" with
  | none => cases attributes <;> simp; omega
  | some v =>
    obtain ⟨before, after, rfl, -⟩ := List.lookup_eq_some_iff.mp h
    have := List.sizeOf_lt_of_mem (show ("children", v) ∈ before ++ ("children", v) :: after by simp)
    simp at this ⊢
    omega

/-- Whether a value is a list, a tuple or one of some generators. -/
def isNested (ids : List ℕ) : Value → Bool
  | .list _ | .tuple _ => true
  | .generator id _ => decide (id ∈ ids)
  | _ => false

/-- Whether attributes are those of an element, but of no component, with nested children. -/
def hasNested (ids : List ℕ) (attributes : List (String × Value)) : Bool :=
  marksElement attributes && !(attributes.lookup "type").any isClosure &&
    (givenChildren attributes).isNested ids

/-- Attributes with other children. -/
def withNodes (attributes : List (String × Value)) (nodes : List Value) : List (String × Value) :=
  attributes.map fun entry => if entry.1 = "children" then (entry.1, .tuple nodes) else entry

mutual

/-- **Dissolving.** What a node comes to among the children of another one. -/
def dissolved (ids : List ℕ) : Value → Dissolved
  | .null | .bool _ => {}
  | .list items | .tuple items => dissolvedAll ids items
  | .generator id items =>
    if id ∈ ids then
      let d := dissolvedAll ids items
      { d with drawn := id :: d.drawn }
    else
      let d := dissolvedEach ids items
      { d with nodes := [.generator id d.nodes] }
  | .element type props children =>
    match type with
    | .closure .. => Dissolved.around {} (.element type props children)
    | .helper .val =>
      have := Mapping.sizeOf_getD_le "value" props
      let value := Mapping.getD "value" props
      let d := dissolved ids value
      d.around (.element type (Mapping.set "value" (d.inPlaceOf value) props) children)
    | .helper .each =>
      let d := dissolvedAll ids children
      { d.around (.element type props d.nodes) with inLoops := d.own ++ d.inLoops }
    | _ =>
      let d := dissolvedAll ids children
      d.around (.element type props d.nodes)
  | .object attributes =>
    have := sizeOf_givenChildren_le attributes
    if hasNested ids attributes then
      let d := dissolved ids (givenChildren attributes)
      d.around (.object (withNodes attributes d.nodes))
    else Dissolved.around {} (.object attributes)
  | v => Dissolved.around {} v

/-- What some children come to. -/
def dissolvedAll (ids : List ℕ) : List Value → Dissolved
  | [] => {}
  | v :: rest => (dissolved ids v).append (dissolvedAll ids rest)

/-- What the items of another generator come to, each at its place. -/
def dissolvedEach (ids : List ℕ) : List Value → Dissolved
  | [] => {}
  | v :: rest => (dissolved ids v).asItem.append (dissolvedEach ids rest)

end

end Value

/-! ### Objects that are marked as elements -/

namespace Value

variable {attributes : List (String × Value)} {nodes : List Value}

/-- Other attributes than the children are kept. -/
theorem lookup_withNodes_of_ne {name : String} (h : name ≠ "children") :
    (withNodes attributes nodes).lookup name = attributes.lookup name := by
  unfold withNodes
  induction attributes with
  | nil => rfl
  | cons entry rest ih =>
    obtain ⟨own, v⟩ := entry
    have hne : own = "children" → (name == own) = false := by
      rintro rfl
      exact beq_false_of_ne h
    rw [List.map_cons]
    split
    · next hown => rw [List.lookup_cons, List.lookup_cons, hne hown, ih]
    · rw [List.lookup_cons, List.lookup_cons, ih]

/-- Where children are given, the nodes are given instead. -/
theorem lookup_children_withNodes {v : Value} (h : attributes.lookup "children" = some v)
    (nodes : List Value) : (withNodes attributes nodes).lookup "children" = some (.tuple nodes) := by
  unfold withNodes
  induction attributes with
  | nil => cases h
  | cons entry rest ih =>
    obtain ⟨own, w⟩ := entry
    rw [List.map_cons]
    split
    · next hown =>
      obtain rfl : own = "children" := hown
      rfl
    · next hown =>
      have hne : ("children" == own) = false := beq_false_of_ne fun heq => hown heq.symm
      rw [List.lookup_cons, hne] at h ⊢
      exact ih h

/-- An element with other nodes is still an element. -/
theorem marksElement_withNodes : marksElement (withNodes attributes nodes) = marksElement attributes := by
  rw [marksElement, marksElement, lookup_withNodes_of_ne (by decide)]

variable {ids : List ℕ}

/-- What has nested generators is an element that calls nothing, and its children are nested. -/
theorem of_hasNested (h : hasNested ids attributes = true) :
    marksElement attributes = true ∧
      (∀ type, attributes.lookup "type" = some type → type.isClosure = false) ∧
      (givenChildren attributes).isNested ids = true := by
  rw [hasNested, Bool.and_eq_true, Bool.and_eq_true, Bool.not_eq_true'] at h
  obtain ⟨⟨hmarked, hcomponent⟩, hnested⟩ := h
  refine ⟨hmarked, fun type htype => ?_, hnested⟩
  rw [htype] at hcomponent
  exact hcomponent

/-- What has nested generators has its children among its attributes. -/
theorem lookup_of_hasNested (h : hasNested ids attributes = true) :
    attributes.lookup "children" = some (givenChildren attributes) := by
  have hnested := (of_hasNested h).2.2
  rw [givenChildren] at hnested ⊢
  cases hlookup : attributes.lookup "children" with
  | none =>
    rw [hlookup] at hnested
    cases hnested
  | some v => rfl

end Value

/-! ### Generators that are dissolved -/

section Own

variable {ids : List ℕ} {d e : Dissolved}

namespace Dissolved

@[simp] theorem own_empty : ({} : Dissolved).own = [] := rfl

@[simp] theorem own_around (d : Dissolved) (node : Value) : (d.around node).own = d.own := rfl

@[simp] theorem own_asItem (d : Dissolved) : d.asItem.own = d.own := rfl

/-- All generators of two lists of nodes, in another order. -/
theorem own_append_perm (d e : Dissolved) : (d.append e).own.Perm (d.own ++ e.own) := by
  simp only [own, append, List.append_assoc]
  refine List.Perm.append_left _ ?_
  rw [← List.append_assoc, ← List.append_assoc]
  exact List.Perm.append_right _ List.perm_append_comm

/-- The generators of two lists of nodes stay within bounds that each keeps. -/
theorem own_append_subset (hd : d.own ⊆ ids) (he : e.own ⊆ ids) : (d.append e).own ⊆ ids := fun _ h =>
  (List.mem_append.mp ((own_append_perm d e).subset h)).elim (hd ·) (he ·)

end Dissolved

namespace Value

mutual

/-- Only generators that are to be dissolved are. -/
theorem own_dissolved_subset (ids : List ℕ) : (v : Value) → (v.dissolved ids).own ⊆ ids
  | .null | .bool _ | .int _ | .float _ | .str _ | .raw _ | .bytes _ | .absent | .fragmentType | .helper _
  | .set _ | .date _ | .moment _ | .map _ | .closure .. => by simp [dissolved]
  | .object attributes => by
    have := sizeOf_givenChildren_le attributes
    rw [dissolved]
    split
    · exact own_dissolved_subset ids (givenChildren attributes)
    · simp
  | .list items | .tuple items => by
    rw [dissolved]
    exact own_dissolvedAll_subset ids items
  | .generator id items => by
    rw [dissolved]
    split
    · next hid => exact List.cons_subset.mpr ⟨hid, own_dissolvedAll_subset ids items⟩
    · exact own_dissolvedEach_subset ids items
  | .element type props children => by
    unfold dissolved
    dsimp only
    split
    · simp
    · have := Mapping.sizeOf_getD_le "value" props
      exact own_dissolved_subset ids (Mapping.getD "value" props)
    · exact own_dissolvedAll_subset ids children
    · exact own_dissolvedAll_subset ids children

/-- Only the given generators are dissolved in children. -/
theorem own_dissolvedAll_subset (ids : List ℕ) :
    (items : List Value) → (dissolvedAll ids items).own ⊆ ids
  | [] => by simp [dissolvedAll]
  | v :: rest => by
    rw [dissolvedAll]
    exact Dissolved.own_append_subset (own_dissolved_subset ids v) (own_dissolvedAll_subset ids rest)

theorem own_dissolvedEach_subset (ids : List ℕ) :
    (items : List Value) → (dissolvedEach ids items).own ⊆ ids
  | [] => by simp [dissolvedEach]
  | v :: rest => by
    rw [dissolvedEach]
    exact Dissolved.own_append_subset (own_dissolved_subset ids v) (own_dissolvedEach_subset ids rest)

end

end Value

end Own

/-! ### Trees that fit -/

/-- What a tree comes to if it has none of the generators. -/
structure Dissolved.IsBare (ids : List ℕ) (d : Dissolved) : Prop where
  others : ∀ v ∈ d.nodes, v.IsWithout ids
  own : d.own = []
  inLoops : d.inLoops = []

/-- **Trees that fit.** Every generator that is dissolved is there once, and nowhere in what is left; and in
previews none is in the body of a loop, which is rendered for each item. -/
structure Dissolved.Fits (ids : List ℕ) (mode : Render.Mode) (d : Dissolved) : Prop where
  nodup : d.own.Nodup
  others : ∀ v ∈ d.nodes, v.IsWithout ids
  once : mode = .preview → d.inLoops = []

section Fits

variable {ids : List ℕ} {mode : Render.Mode} {d e : Dissolved} {node : Value}

namespace Dissolved

/-- A bare list of nodes fits in either mode. -/
theorem IsBare.fits (h : d.IsBare ids) : d.Fits ids mode :=
  ⟨h.own ▸ List.nodup_nil, h.others, fun _ => h.inLoops⟩

/-- The empty list of nodes is bare. -/
theorem isBare_empty : ({} : Dissolved).IsBare ids := ⟨List.forall_mem_nil _, rfl, rfl⟩

/-- A node without generators keeps a list of nodes bare. -/
theorem IsBare.around (h : d.IsBare ids) (hnode : node.IsWithout ids) : (d.around node).IsBare ids :=
  ⟨List.forall_mem_singleton.mpr hnode, h.own, h.inLoops⟩

theorem IsBare.asItem (h : d.IsBare ids) : d.asItem.IsBare ids :=
  ⟨List.forall_mem_singleton.mpr (.tuple _ h.others), h.own, h.inLoops⟩

/-- Two bare lists of nodes are bare together. -/
theorem IsBare.append (hd : d.IsBare ids) (he : e.IsBare ids) : (d.append e).IsBare ids := by
  refine ⟨List.forall_mem_append.mpr ⟨hd.others, he.others⟩, ?_, ?_⟩
  · have hperm := own_append_perm d e
    rw [hd.own, he.own] at hperm
    exact hperm.eq_nil
  · exact List.append_eq_nil_iff.mpr ⟨hd.inLoops, he.inLoops⟩

/-- Nodes that fit are made of nodes that fit, with other generators each. -/
theorem Fits.of_append (h : (d.append e).Fits ids mode) :
    d.Fits ids mode ∧ e.Fits ids mode ∧ d.own.Disjoint e.own := by
  have hnodup := (own_append_perm d e).nodup_iff.mp h.nodup
  obtain ⟨hd, he⟩ := List.forall_mem_append.mp h.others
  refine ⟨⟨hnodup.of_append_left, hd, fun hmode => ?_⟩, ⟨hnodup.of_append_right, he, fun hmode => ?_⟩,
    List.disjoint_of_nodup_append hnodup⟩
  · exact (List.append_eq_nil_iff.mp (h.once hmode)).1
  · exact (List.append_eq_nil_iff.mp (h.once hmode)).2

/-- What fits as one item fits as its nodes. -/
theorem Fits.of_asItem (h : d.asItem.Fits ids mode) : d.Fits ids mode :=
  ⟨h.nodup, (Value.hereditary_isWithout ids).of_tuple (List.forall_mem_singleton.mp h.others), h.once⟩

/-- Generators that are apart are drawn apart. -/
theorem drawn_disjoint (h : d.own.Disjoint e.own) : d.drawn.Disjoint e.drawn :=
  List.disjoint_of_subset_left (List.subset_append_left _ _)
    (List.disjoint_of_subset_right (List.subset_append_left _ _) h)

/-- What is drawn on the way and what stays inside are apart. -/
theorem Fits.disjoint (h : d.Fits ids mode) : d.drawn.Disjoint d.inside :=
  List.disjoint_of_nodup_append h.nodup

end Dissolved

namespace Value

/-- Children that are bare one by one are bare together. -/
theorem isBare_dissolvedAll {items : List Value} (h : ∀ v ∈ items, (v.dissolved ids).IsBare ids) :
    (dissolvedAll ids items).IsBare ids := by
  induction items with
  | nil =>
    rw [dissolvedAll]
    exact Dissolved.isBare_empty
  | cons v rest ih =>
    obtain ⟨hv, hrest⟩ := List.forall_mem_cons.mp h
    rw [dissolvedAll]
    exact hv.append (ih hrest)

theorem isBare_dissolvedEach {items : List Value} (h : ∀ v ∈ items, (v.dissolved ids).IsBare ids) :
    (dissolvedEach ids items).IsBare ids := by
  induction items with
  | nil =>
    rw [dissolvedEach]
    exact Dissolved.isBare_empty
  | cons v rest ih =>
    obtain ⟨hv, hrest⟩ := List.forall_mem_cons.mp h
    rw [dissolvedEach]
    exact hv.asItem.append (ih hrest)

/-- What is given by a value, or by nothing. -/
private theorem isBare_getD {given : Option Value} (h : ∀ v ∈ given, (v.dissolved ids).IsBare ids) :
    ((given.getD .null).dissolved ids).IsBare ids := by
  cases given with
  | none =>
    rw [Option.getD_none, dissolved]
    exact Dissolved.isBare_empty
  | some v => exact h v rfl

/-- In a tree without the generators none is dissolved. -/
theorem IsWithout.isBare {v : Value} (h : v.IsWithout ids) : (v.dissolved ids).IsBare ids := by
  have hp := hereditary_isWithout ids
  -- a value that is without the generators has none to draw, in children, objects and references alike
  induction h with
  | null | bool =>
    rw [dissolved]
    exact Dissolved.isBare_empty
  | int | float | str | raw | bytes | absent | fragmentType | helper | date | moment =>
    rw [dissolved]
    · exact Dissolved.isBare_empty.around (by constructor)
    all_goals exact nofun
  | object attributes each ih =>
    rw [dissolved]
    split
    · have hbare : ((givenChildren attributes).dissolved ids).IsBare ids := isBare_getD fun v hv => by
        obtain ⟨before, after, rfl, -⟩ := List.lookup_eq_some_iff.mp hv
        exact ih ("children", v) (by simp)
      refine hbare.around (.object _ fun entry hentry => ?_)
      obtain ⟨own, hown, rfl⟩ := List.mem_map.mp hentry
      split
      · exact .tuple _ hbare.others
      · exact each own hown
    · exact Dissolved.isBare_empty.around (.object _ each)
  | set | map | closure =>
    rw [dissolved]
    · exact Dissolved.isBare_empty.around (by constructor <;> assumption)
    all_goals exact nofun
  | list items _ ih | tuple items _ ih =>
    rw [dissolved]
    exact isBare_dissolvedAll ih
  | generator id items other _ ih =>
    have heach := isBare_dissolvedEach ih
    rw [dissolved, if_neg other]
    exact ⟨List.forall_mem_singleton.mpr (.generator _ _ other heach.others), heach.own, heach.inLoops⟩
  | element type props children htype keys values each _ _ ihvalues ih =>
    have hprops : Mapping.IsWithout ids props := fun entry hentry =>
      ⟨keys entry hentry, values entry hentry⟩
    have hall := isBare_dissolvedAll ih
    have hinside := Element.isWithout_element htype hprops hall.others
    unfold dissolved
    dsimp only
    split
    · exact Dissolved.isBare_empty.around (Element.isWithout_element htype hprops each)
    · have hvalue : ((Mapping.getD "value" props).dissolved ids).IsBare ids := isBare_getD fun v hv => by
        obtain ⟨k, hmem⟩ := Mapping.exists_mem_of_get? hv
        exact ihvalues _ hmem
      refine hvalue.around (Element.isWithout_element htype (hp.set hprops "value" ?_) each)
      unfold Dissolved.inPlaceOf
      split
      · exact hp.getD hprops "value"
      · exact .tuple _ hvalue.others
    · exact ⟨List.forall_mem_singleton.mpr hinside, hall.own,
        List.append_eq_nil_iff.mpr ⟨hall.own, hall.inLoops⟩⟩
    · exact hall.around hinside

end Value

end Fits

end Stencil
