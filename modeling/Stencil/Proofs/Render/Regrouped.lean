import Stencil.Proofs.Condition.Levels
import Stencil.Proofs.Render.Constructs

/-!
# How children are nested

Children may be nested in lists, tuples and generators, with nothing and truth values among them.
`Value.dissolved` is what a tree comes to when this is undone in the whole tree; a node is rendered, and read
as a child, as what it comes to (`Alike`, `alike`).

The main statement is `render_regrouped`: **two trees that come to the same nodes have the same markup**. How
children are nested, and whether generators give them, does not matter to tags, fragments, conditionals,
loops, providers and references. It does matter in one place: a preview reads the body of a loop for each item
of the array, and a generator in it gives its nodes for the first item only
(`preview_loop_ne`).
-/

namespace Stencil.Render

open Component

/-! ### Trees and what they come to -/

/-- **Alike.** A node that fits is rendered, and read as a child, as what it comes to. -/
structure Alike (ids : List ℕ) (s : Setting) (onward : Context → Value → Pass Text) (v : Value) :
    Prop where
  node : (v.dissolved ids).Fits ids s.mode → ∀ ctx : Context, ctx.IsWithout ids →
    Corresponds ids (v.dissolved ids).own (· = ·) (renderNode s onward v ctx)
      (renderAll s onward (v.dissolved ids).nodes ctx)
  parts : (v.dissolved ids).Fits ids s.mode →
    Corresponds ids (v.dissolved ids).drawn (PartsAlike ids (v.dissolved ids).inside) (partsOf s onward v)
      (Render.parts s onward (v.dissolved ids).nodes)

section Alike

variable {ids : List ℕ} {s : Setting} {onward : Context → Value → Pass Text} {ctx : Context}

/-- Alone among the children a node is rendered as it is. -/
private theorem renderAll_singleton (v : Value) :
    renderAll s onward [v] ctx = renderNode s onward v ctx := by
  simp only [renderAll, List.append_nil, pure_bind, bind_pure]

private theorem parts_singleton (v : Value) : Render.parts s onward [v] = partsOf s onward v := by
  simp only [Render.parts, List.append_nil, pure_bind, bind_pure]

/-- Without generators to dissolve, nodes that are alike are framed. -/
theorem Alike.isFramed {v : Value} (h : Alike ids s onward v) : IsFramed ids s onward v := by
  intro hv ctx hctx
  have hbare := hv.isBare
  have hsame := h.node hbare.fits ctx hctx
  rw [hbare.own] at hsame
  exact hsame.framed

/-! ### Children -/

variable {items : List Value}

theorem corresponds_renderAll (h : ∀ v ∈ items, Alike ids s onward v)
    (hfits : (Value.dissolvedAll ids items).Fits ids s.mode) (hctx : ctx.IsWithout ids) :
    Corresponds ids (Value.dissolvedAll ids items).own (· = ·) (renderAll s onward items ctx)
      (renderAll s onward (Value.dissolvedAll ids items).nodes ctx) := by
  induction items with
  | nil =>
    simp only [Value.dissolvedAll, renderAll]
    exact .pure rfl
  | cons v rest ih =>
    obtain ⟨hv, hrest⟩ := List.forall_mem_cons.mp h
    rw [Value.dissolvedAll] at hfits ⊢
    obtain ⟨hfits₁, hfits₂, hdisjoint⟩ := hfits.of_append
    rw [renderAll, Dissolved.append, renderAll_append]
    refine ((hv.node hfits₁ ctx hctx).append (ih hrest hfits₂) hdisjoint
      (Value.own_dissolvedAll_subset ids rest) fun _ _ _ _ => congrArg₂ _).mono (fun _ _ heq => heq) ?_
    exact (Dissolved.own_append_perm _ _).symm.subset

theorem corresponds_parts (h : ∀ v ∈ items, Alike ids s onward v)
    (hfits : (Value.dissolvedAll ids items).Fits ids s.mode) :
    Corresponds ids (Value.dissolvedAll ids items).drawn
      (PartsAlike ids (Value.dissolvedAll ids items).inside) (Render.parts s onward items)
      (Render.parts s onward (Value.dissolvedAll ids items).nodes) := by
  induction items with
  | nil =>
    simp only [Value.dissolvedAll, Render.parts]
    exact .pure (.nil _)
  | cons v rest ih =>
    obtain ⟨hv, hrest⟩ := List.forall_mem_cons.mp h
    rw [Value.dissolvedAll] at hfits ⊢
    obtain ⟨hfits₁, hfits₂, hdisjoint⟩ := hfits.of_append
    rw [Render.parts, Dissolved.append, parts_append]
    have hown := (List.append_subset.mp (Value.own_dissolvedAll_subset ids rest)).1
    exact (hv.parts hfits₁).append (ih hrest hfits₂) (Dissolved.drawn_disjoint hdisjoint) hown
      fun _ _ _ _ hfirst hmore => hfirst.append hmore

/-! ### What is left of a generator -/

theorem corresponds_renderFrom {id : ℕ} (hid : id ∈ ids) (h : ∀ v ∈ items, Alike ids s onward v)
    (hfits : (Value.dissolvedAll ids items).Fits ids s.mode)
    (hnot : id ∉ (Value.dissolvedAll ids items).own) (hctx : ctx.IsWithout ids) (position : ℕ) :
    CorrespondsFrom ids (Value.dissolvedAll ids items).own id position (· = ·)
      (renderFrom s onward id position items ctx)
      (renderAll s onward (Value.dissolvedAll ids items).nodes ctx) := by
  induction items generalizing position with
  | nil =>
    simp only [Value.dissolvedAll, renderFrom, renderAll]
    exact .pure rfl
  | cons v rest ih =>
    obtain ⟨hv, hrest⟩ := List.forall_mem_cons.mp h
    rw [Value.dissolvedAll] at hfits hnot ⊢
    obtain ⟨hfits₁, hfits₂, hdisjoint⟩ := hfits.of_append
    -- the generator is not among those that the item is rendered with
    have hperm := Dissolved.own_append_perm (v.dissolved ids) (Value.dissolvedAll ids rest)
    rw [hperm.mem_iff] at hnot
    rw [renderFrom, Dissolved.append, renderAll_append]
    have hmore := ih hrest hfits₂ (fun hmem => hnot (List.mem_append_right _ hmem)) (position + 1)
    exact (CorrespondsFrom.cons hid (hv.node hfits₁ ctx hctx) hmore hnot hdisjoint
      (Value.own_dissolvedAll_subset ids rest) fun _ _ _ _ => congrArg₂ _).mono hperm.symm.subset

theorem corresponds_partsFrom {id : ℕ} (hid : id ∈ ids) (h : ∀ v ∈ items, Alike ids s onward v)
    (hfits : (Value.dissolvedAll ids items).Fits ids s.mode)
    (hnot : id ∉ (Value.dissolvedAll ids items).drawn) (position : ℕ) :
    CorrespondsFrom ids (Value.dissolvedAll ids items).drawn id position
      (PartsAlike ids (Value.dissolvedAll ids items).inside) (partsFrom s onward id position items)
      (Render.parts s onward (Value.dissolvedAll ids items).nodes) := by
  induction items generalizing position with
  | nil =>
    simp only [Value.dissolvedAll, partsFrom, Render.parts]
    exact .pure (.nil _)
  | cons v rest ih =>
    obtain ⟨hv, hrest⟩ := List.forall_mem_cons.mp h
    rw [Value.dissolvedAll] at hfits hnot ⊢
    obtain ⟨hfits₁, hfits₂, hdisjoint⟩ := hfits.of_append
    rw [partsFrom, Dissolved.append, parts_append]
    have hown := (List.append_subset.mp (Value.own_dissolvedAll_subset ids rest)).1
    have hmore := ih hrest hfits₂ (fun hmem => hnot (List.mem_append_right _ hmem)) (position + 1)
    exact CorrespondsFrom.cons hid (hv.parts hfits₁) hmore hnot (Dissolved.drawn_disjoint hdisjoint) hown
      fun _ _ _ _ hfirst hrest => hfirst.append hrest

/-- The items of another generator are at their places. -/
theorem corresponds_renderFrom_other {id : ℕ} (hid : id ∉ ids) (h : ∀ v ∈ items, Alike ids s onward v)
    (hfits : (Value.dissolvedEach ids items).Fits ids s.mode) (hctx : ctx.IsWithout ids) (position : ℕ) :
    Corresponds ids (Value.dissolvedEach ids items).own (· = ·) (renderFrom s onward id position items ctx)
      (renderFrom s onward id position (Value.dissolvedEach ids items).nodes ctx) := by
  induction items generalizing position with
  | nil =>
    simp only [Value.dissolvedEach, renderFrom]
    exact .pure rfl
  | cons v rest ih =>
    obtain ⟨hv, hrest⟩ := List.forall_mem_cons.mp h
    have hown := Value.own_dissolvedEach_subset ids (v :: rest)
    rw [Value.dissolvedEach] at hfits hown ⊢
    obtain ⟨hfits₁, hfits₂, hdisjoint⟩ := hfits.of_append
    have hperm := Dissolved.own_append_perm (v.dissolved ids).asItem (Value.dissolvedEach ids rest)
    have hnode := hv.node hfits₁.of_asItem ctx hctx
    rw [renderFrom, Dissolved.append, Dissolved.asItem, List.singleton_append, renderFrom, renderNode]
    exact (Corresponds.drawn hid position hnode rfl (ih hrest hfits₂ (position + 1)) hdisjoint
      (fun _ hmem => hown (hperm.symm.subset hmem)) fun _ _ _ _ => congrArg₂ _).mono (fun _ _ heq => heq)
      hperm.symm.subset

theorem corresponds_partsFrom_other {id : ℕ} (hid : id ∉ ids) (h : ∀ v ∈ items, Alike ids s onward v)
    (hfits : (Value.dissolvedEach ids items).Fits ids s.mode) (position : ℕ) :
    Corresponds ids (Value.dissolvedEach ids items).drawn
      (PartsAlike ids (Value.dissolvedEach ids items).inside) (partsFrom s onward id position items)
      (partsFrom s onward id position (Value.dissolvedEach ids items).nodes) := by
  induction items generalizing position with
  | nil =>
    simp only [Value.dissolvedEach, partsFrom]
    exact .pure (.nil _)
  | cons v rest ih =>
    obtain ⟨hv, hrest⟩ := List.forall_mem_cons.mp h
    have hown := (List.append_subset.mp (Value.own_dissolvedEach_subset ids (v :: rest))).1
    rw [Value.dissolvedEach] at hfits hown ⊢
    obtain ⟨hfits₁, hfits₂, hdisjoint⟩ := hfits.of_append
    have hparts := hv.parts hfits₁.of_asItem
    rw [partsFrom, Dissolved.append, Dissolved.asItem, List.singleton_append, partsFrom, partsOf]
    exact Corresponds.drawn hid position hparts (.nil _) (ih hrest hfits₂ (position + 1))
      (Dissolved.drawn_disjoint hdisjoint) hown fun _ _ _ _ hfirst hmore => hfirst.append hmore

/-! ### Nodes -/

/-- A node that stays a node of its own. -/
private theorem alike_of_single {v w : Value} {own loops : List ℕ}
    (hd : v.dissolved ids = ⟨[w], [], own, loops⟩)
    (hv : partsOf s onward v = pure [⟨v, renderNode s onward v⟩])
    (hw : partsOf s onward w = pure [⟨w, renderNode s onward w⟩]) (hhelper : v.helper? = w.helper?)
    (hclosure : v.isClosure = w.isClosure) (hfunction : v.isClosure = true → v = w)
    (hrender : (v.dissolved ids).Fits ids s.mode → ∀ ctx : Context, ctx.IsWithout ids →
      Corresponds ids own (· = ·) (renderNode s onward v ctx) (renderNode s onward w ctx)) :
    Alike ids s onward v := by
  constructor
  · intro hfits ctx hctx
    have hsame := hrender hfits ctx hctx
    rw [hd, renderAll_singleton]
    exact hsame
  · intro hfits
    have hothers : w.IsWithout ids := (hd ▸ hfits).others w (List.mem_singleton.mpr rfl)
    have hsame := hrender hfits
    rw [hd, parts_singleton, hv, hw]
    exact .pure (.single ⟨hhelper, hclosure, fun h => ⟨hfunction h, hfunction h ▸ hothers⟩, hsame⟩)

/-- A node that nothing in is dissolved. -/
private theorem alike_of_isFramed {v : Value} (hd : v.dissolved ids = Dissolved.around {} v)
    (hv : partsOf s onward v = pure [⟨v, renderNode s onward v⟩]) (h : IsFramed ids s onward v) :
    Alike ids s onward v :=
  alike_of_single hd hv hv rfl rfl (fun _ => rfl) fun hfits ctx hctx =>
    (h ((hd ▸ hfits).others v (List.mem_singleton.mpr rfl)) ctx hctx).corresponds

/-- An element whose children are dissolved. -/
private theorem alike_of_children {type : Value} {props : Mapping} {children : List Value} (loops : List ℕ)
    (hd : (Value.element type props children).dissolved ids =
      ⟨[.element type props (Value.dissolvedAll ids children).nodes], [],
        (Value.dissolvedAll ids children).own, loops⟩)
    (hloops : loops = [] → (Value.dissolvedAll ids children).inLoops = [])
    (hrender : (Value.dissolvedAll ids children).Fits ids s.mode → (s.mode = .preview → loops = []) →
      props.IsWithout ids → ∀ ctx : Context, ctx.IsWithout ids →
        Corresponds ids (Value.dissolvedAll ids children).own (· = ·)
          (renderNode s onward (.element type props children) ctx)
          (renderNode s onward (.element type props (Value.dissolvedAll ids children).nodes) ctx)) :
    Alike ids s onward (.element type props children) := by
  have hpart : ∀ children : List Value, partsOf s onward (.element type props children) =
      pure [⟨.element type props children, renderNode s onward (.element type props children)⟩] :=
    fun children => by simp only [partsOf]
  refine alike_of_single hd (hpart _) (hpart _) ?_ rfl
    (fun h => absurd h Bool.false_ne_true) fun hfits => ?_
  · cases type <;> rfl
  · rw [hd] at hfits
    obtain ⟨-, hprops, hnodes⟩ :=
      (Value.hereditary_isWithout ids).of_element (hfits.others _ (List.mem_singleton.mpr rfl))
    exact hrender ⟨hfits.nodup, hnodes, fun hmode => hloops (hfits.once hmode)⟩ hfits.once hprops

/-- A reference whose value is dissolved. -/
private theorem alike_val (honward : GoesOn ids s.mode onward) {props : Mapping}
    (hvalue : Alike ids s onward (Mapping.getD "value" props)) (children : List Value) :
    Alike ids s onward (.element (.helper .val) props children) := by
  have hp := Value.hereditary_isWithout ids
  set value := Mapping.getD "value" props with hgiven
  set d := value.dissolved ids with hdissolved
  set shown := d.inPlaceOf value with hshown
  have hgivenShown : Mapping.getD "value" (props.set "value" shown) = shown := by
    rw [Mapping.getD, Mapping.at?_set_self, Option.getD_some]
  have hname : Mapping.getD "name" (props.set "value" shown) = Mapping.getD "name" props := by
    rw [Mapping.getD, Mapping.at?_set_of_ne (by decide), Mapping.getD]
  have hd : (Value.element (.helper .val) props children).dissolved ids =
      ⟨[.element (.helper .val) (props.set "value" shown) children], [], d.own, d.inLoops⟩ := by
    simp [Value.dissolved, Dissolved.around, hshown, hdissolved, hgiven]
  refine alike_of_single hd (by simp only [partsOf]) (by simp only [partsOf]) rfl rfl
    (fun h => absurd h Bool.false_ne_true) fun hfits ctx hctx => ?_
  rw [hd] at hfits
  obtain ⟨-, hprops, -⟩ := hp.of_element (hfits.others _ (List.mem_singleton.mpr rfl))
  have hshown' : shown.IsWithout ids := hgivenShown ▸ hp.getD hprops "value"
  have hname' : (Mapping.getD "name" props).IsWithout ids := hname ▸ hp.getD hprops "name"
  have hinner : d.Fits ids s.mode := by
    rw [hshown, Dissolved.inPlaceOf] at hshown'
    split at hshown'
    · exact hshown'.isBare.fits
    · exact ⟨hfits.nodup, hp.of_tuple hshown', hfits.once⟩
  have hnode : Corresponds ids d.own (· = ·) (renderNode s onward value ctx)
      (renderNode s onward shown ctx) := by
    rw [hshown, Dissolved.inPlaceOf] at hshown' ⊢
    split at hshown'
    · next hnothing =>
      rw [if_pos hnothing]
      exact (hvalue.isFramed hshown' ctx hctx).corresponds
    · next hnothing =>
      rw [if_neg hnothing, renderNode]
      exact hvalue.node hinner ctx hctx
  rw [renderNode, renderNode]
  cases hmode : s.mode with
  | preview =>
    dsimp only
    rw [hgivenShown, hname]
    exact corresponds_previewVal (hmode ▸ honward) hctx hname' (hmode ▸ hinner)
  | markers =>
    dsimp only
    rw [hgivenShown, hname]
    exact corresponds_markersVal hnode (isNull_inPlaceOf d value).symm _

/-- A conditional whose children are dissolved. -/
private theorem alike_ifThen {props : Mapping} {children : List Value}
    (hchildren : ∀ v ∈ children, Alike ids s onward v) :
    Alike ids s onward (.element (.helper .ifThen) props children) := by
  have hown := Value.own_dissolvedAll_subset ids children
  have hinside : (Value.dissolvedAll ids children).inside ⊆ ids := (List.append_subset.mp hown).2
  refine alike_of_children _ (by simp [Value.dissolved, Dissolved.around]) id fun hfits _ _ ctx hctx => ?_
  have hnodup := (List.nodup_append'.mp hfits.nodup).2.1
  rw [renderNode, renderNode]
  exact (corresponds_parts hchildren hfits).bind
    (fun ps qs halike => corresponds_renderIf halike hctx hnodup hinside _) hfits.disjoint hinside

/-- A loop whose body is dissolved. -/
private theorem alike_each (honward : GoesOn ids s.mode onward) {props : Mapping} {children : List Value}
    (hchildren : ∀ v ∈ children, Alike ids s onward v) :
    Alike ids s onward (.element (.helper .each) props children) := by
  have hp := Value.hereditary_isWithout ids
  have hown := Value.own_dissolvedAll_subset ids children
  have hinside : (Value.dissolvedAll ids children).inside ⊆ ids := (List.append_subset.mp hown).2
  refine alike_of_children ((Value.dissolvedAll ids children).own ++
    (Value.dissolvedAll ids children).inLoops) (by simp [Value.dissolved, Dissolved.around])
    (fun h => (List.append_eq_nil_iff.mp h).2) fun hfits honce hprops ctx hctx => ?_
  have harray := isWithout_givenText (hp.getD hprops "array")
  have hitemVar := hp.getD hprops "item_var"
  have hbody : ∀ (ctx : Context) (item : Value) (index : ℕ),
      ctx.IsWithout ids → item.IsWithout ids →
      Corresponds ids (Value.dissolvedAll ids children).own (· = ·)
        (renderBody s onward (Render.parts s onward children) ctx item index)
        (renderBody s onward (Render.parts s onward (Value.dissolvedAll ids children).nodes) ctx item
          index) := fun ctx item index hctx hitem =>
    corresponds_renderBody (fun ctx v hctx hv => honward.framed hctx hv)
      (corresponds_parts hchildren hfits) hfits.nodup hinside hctx hitem index
  rw [renderNode, renderNode]
  cases hmode : s.mode with
  | preview =>
    -- for each item the body is read anew, so there must be no generator to dissolve
    have hnone := (List.append_eq_nil_iff.mp (honce hmode)).1
    rw [hnone] at hbody ⊢
    exact corresponds_previewEach hbody hctx harray hitemVar
  | markers => exact corresponds_markersEach hbody hctx harray hitemVar hown

/-- **Elements.** An element is rendered as the element with dissolved children. -/
private theorem alike_element (honward : GoesOn ids s.mode onward) {type : Value} {props : Mapping}
    {children : List Value} (hvalue : Alike ids s onward (Mapping.getD "value" props))
    (hchildren : ∀ v ∈ children, Alike ids s onward v) :
    Alike ids s onward (.element type props children) := by
  have hp := Value.hereditary_isWithout ids
  have hown := Value.own_dissolvedAll_subset ids children
  have hall : ∀ {ctx : Context}, (Value.dissolvedAll ids children).Fits ids s.mode → ctx.IsWithout ids →
      Corresponds ids (Value.dissolvedAll ids children).own (· = ·) (renderAll s onward children ctx)
        (renderAll s onward (Value.dissolvedAll ids children).nodes ctx) := fun hfits hctx =>
    corresponds_renderAll hchildren hfits hctx
  cases type with
  | closure name scope body traits =>
    refine alike_of_isFramed (by simp only [Value.dissolved]) (by simp only [partsOf]) fun hv ctx hctx => ?_
    obtain ⟨hcomponent, hprops, hgiven⟩ := hp.of_element hv
    rw [renderNode]
    exact (framed_call hcomponent (isWithout_withChildren hprops hgiven)).bind fun v hv =>
      honward.framed hctx hv
  | helper kind =>
    cases kind with
    | ifThen => exact alike_ifThen hchildren
    | otherwise =>
      refine alike_of_children _ (by simp [Value.dissolved, Dissolved.around]) id fun hfits _ _ ctx hctx => ?_
      rw [renderNode, renderNode]
      exact hall hfits hctx
    | provider =>
      refine alike_of_children _ (by simp [Value.dissolved, Dissolved.around]) id
        fun hfits _ hprops ctx hctx => ?_
      rw [renderNode, renderNode]
      exact hall hfits ⟨hp.getD hprops "data", hctx.array, hctx.itemVar⟩
    | each => exact alike_each honward hchildren
    | val => exact alike_val honward hvalue children
  | fragmentType =>
    refine alike_of_children _ (by simp [Value.dissolved, Dissolved.around]) id fun hfits _ _ ctx hctx => ?_
    rw [renderNode, renderNode]
    exact hall hfits hctx
  | str tag | raw tag =>
    refine alike_of_children _ (by simp [Value.dissolved, Dissolved.around]) id fun hfits _ _ ctx hctx => ?_
    rw [renderNode, renderNode]
    exact corresponds_renderTag (hall hfits hctx) hown tag props
  | _ =>
    refine alike_of_children _ (by simp [Value.dissolved, Dissolved.around]) id fun hfits _ _ ctx hctx => ?_
    simp only [renderNode]
    exact .throw _

/-- The attribute of a name is rendered by its items, if there is one. -/
private theorem renderAttribute_of_lookup {attributes : List (String × Value)} {name : String} {v : Value}
    (h : attributes.lookup name = some v) :
    renderAttribute s onward name attributes ctx = renderInside s onward v ctx := by
  induction attributes with
  | nil => cases h
  | cons entry rest ih =>
    obtain ⟨own, w⟩ := entry
    rw [List.lookup_cons] at h
    rw [renderAttribute]
    split at h
    · next hown =>
      obtain rfl := Option.some.inj h
      rw [if_pos (eq_of_beq hown).symm]
    · next hown => rw [if_neg fun heq => absurd (beq_iff_eq.mpr heq.symm) (by simp [hown]), ih h]

private theorem renderInside_of_isNested {v : Value} (h : v.isNested ids = true) :
    renderInside s onward v ctx = renderNode s onward v ctx := by
  cases v with
  | list | tuple | generator => rw [renderInside, renderNode]
  | _ => cases h

private theorem attributeOf_withNodes {attributes : List (String × Value)} {nodes : List Value} {name : String}
    (h : name ≠ "children") :
    attributeOf (Value.withNodes attributes nodes) name = attributeOf attributes name := by
  rw [attributeOf, attributeOf, Value.lookup_withNodes_of_ne h]
  rfl

/-- **Objects.** An object that is marked as an element is rendered as the object with dissolved children. -/
private theorem alike_object {attributes : List (String × Value)}
    (hnested : Value.hasNested ids attributes = true)
    (hvalue : Alike ids s onward (Value.givenChildren attributes)) :
    Alike ids s onward (.object attributes) := by
  have hp := Value.hereditary_isWithout ids
  obtain ⟨hmarked, hcomponent, hisNested⟩ := Value.of_hasNested hnested
  have hlookup := Value.lookup_of_hasNested hnested
  set d := (Value.givenChildren attributes).dissolved ids with hdissolved
  have hlookup' := Value.lookup_children_withNodes hlookup d.nodes
  have hown : d.own ⊆ ids := Value.own_dissolved_subset ids _
  have hd : (Value.object attributes).dissolved ids =
      ⟨[.object (Value.withNodes attributes d.nodes)], [], d.own, d.inLoops⟩ := by
    rw [Value.dissolved, if_pos hnested]
    rfl
  refine alike_of_single hd (by simp only [partsOf]) (by simp only [partsOf]) rfl rfl
    (fun h => absurd h Bool.false_ne_true) fun hfits ctx hctx => ?_
  have hinner : d.Fits ids s.mode := by
    rw [hd] at hfits
    have hleft := hp.of_object (hfits.others _ (List.mem_singleton.mpr rfl))
    obtain ⟨before, after, heq, -⟩ := List.lookup_eq_some_iff.mp hlookup'
    have hnodes : (Value.tuple d.nodes).IsWithout ids :=
      hleft ("children", .tuple d.nodes) (by rw [heq]; simp)
    exact ⟨hfits.nodup, hp.of_tuple hnodes, hfits.once⟩
  have hchildren : Corresponds ids d.own (· = ·) (renderAttribute s onward "children" attributes ctx)
      (renderAttribute s onward "children" (Value.withNodes attributes d.nodes) ctx) := by
    rw [renderAttribute_of_lookup hlookup, renderAttribute_of_lookup hlookup',
      renderInside_of_isNested hisNested, renderInside]
    exact hvalue.node hinner ctx hctx
  -- the type is no component, and the tag and the properties are the same
  have htype : Framed ids (fun type => type.isClosure = false)
      (liftM (attributeOf attributes "type") : Pass Value) := by
    refine .liftM fun type h => hcomponent type ?_
    unfold attributeOf at h
    split at h
    · next v hv => rw [hv, Except.ok.inj h]
    · cases h
  have htag : ∀ tag : String, Corresponds ids d.own (· = ·)
      (do renderTag tag (← propertiesOf attributes) (renderAttribute s onward "children" attributes ctx))
      (do renderTag tag (← propertiesOf attributes)
            (renderAttribute s onward "children" (Value.withNodes attributes d.nodes) ctx)) := by
    intro tag
    have hprops : Framed ids (fun _ => True) (liftM (propertiesOf attributes) : Pass Mapping) :=
      .liftM fun _ _ => trivial
    exact Corresponds.after hprops (fun props _ => corresponds_renderTag hchildren hown tag props) hown
  have hprops : propertiesOf (Value.withNodes attributes d.nodes) = propertiesOf attributes := by
    rw [propertiesOf, propertiesOf, attributeOf_withNodes (by decide)]
  rw [renderNode, renderNode, if_pos hmarked, if_pos (Value.marksElement_withNodes.trans hmarked),
    attributeOf_withNodes (by decide), hprops]
  refine Corresponds.after htype (fun type hno => ?_) hown
  cases type with
  | fragmentType => exact hchildren
  | str tag | raw tag => exact htag tag
  | closure => cases hno
  | _ => exact .throw _

/-- What stands for its items is rendered as they are. -/
private theorem alike_of_items {v : Value} (hd : v.dissolved ids = Value.dissolvedAll ids items)
    (hnode : ∀ ctx, renderNode s onward v ctx = renderAll s onward items ctx)
    (hparts : partsOf s onward v = Render.parts s onward items)
    (hitems : ∀ w ∈ items, Alike ids s onward w) : Alike ids s onward v := by
  constructor
  · intro hfits ctx hctx
    rw [hd] at hfits ⊢
    rw [hnode]
    exact corresponds_renderAll hitems hfits hctx
  · intro hfits
    rw [hd] at hfits ⊢
    rw [hparts]
    exact corresponds_parts hitems hfits

/-- A generator that is dissolved is rendered as its items. -/
private theorem alike_generator {id : ℕ} (hid : id ∈ ids) (hitems : ∀ w ∈ items, Alike ids s onward w) :
    Alike ids s onward (.generator id items) := by
  have hd : (Value.generator id items).dissolved ids =
      { Value.dissolvedAll ids items with drawn := id :: (Value.dissolvedAll ids items).drawn } := by
    rw [Value.dissolved, if_pos hid]
  have hinner : ((Value.generator id items).dissolved ids).Fits ids s.mode →
      id ∉ (Value.dissolvedAll ids items).own ∧ (Value.dissolvedAll ids items).Fits ids s.mode := by
    intro hfits
    rw [hd] at hfits
    obtain ⟨hnot, hnodup⟩ := List.nodup_cons.mp hfits.nodup
    exact ⟨hnot, hnodup, hfits.others, hfits.once⟩
  constructor
  · intro hfits ctx hctx
    obtain ⟨hnot, hfits⟩ := hinner hfits
    rw [hd, renderNode]
    exact (corresponds_renderFrom hid hitems hfits hnot hctx 0).corresponds
  · intro hfits
    obtain ⟨hnot, hfits⟩ := hinner hfits
    rw [hd, partsOf]
    refine (corresponds_partsFrom hid hitems hfits (fun hmem => hnot ?_) 0).corresponds
    exact List.mem_append_left _ hmem

/-- Another generator stays, around what its items come to. -/
private theorem alike_generator_other {id : ℕ} (hid : id ∉ ids)
    (hitems : ∀ w ∈ items, Alike ids s onward w) : Alike ids s onward (.generator id items) := by
  have hd : (Value.generator id items).dissolved ids =
      { Value.dissolvedEach ids items with
        nodes := [.generator id (Value.dissolvedEach ids items).nodes] } := by
    rw [Value.dissolved, if_neg hid]
  have hinner : ((Value.generator id items).dissolved ids).Fits ids s.mode →
      (Value.dissolvedEach ids items).Fits ids s.mode := by
    intro hfits
    rw [hd] at hfits
    have hothers := hfits.others _ (List.mem_singleton.mpr rfl)
    exact ⟨hfits.nodup, (Value.hereditary_isWithout ids).of_generator hothers, hfits.once⟩
  constructor
  · intro hfits ctx hctx
    have hfits := hinner hfits
    rw [hd, renderAll_singleton, renderNode, renderNode]
    exact corresponds_renderFrom_other hid hitems hfits hctx 0
  · intro hfits
    have hfits := hinner hfits
    rw [hd, parts_singleton, partsOf, partsOf]
    exact corresponds_partsFrom_other hid hitems hfits 0

/-- **Nodes.** Every node is rendered as what it comes to, by recursion on its size. -/
theorem alike (honward : GoesOn ids s.mode onward) (v : Value) : Alike ids s onward v := by
  have hp := Value.hereditary_isWithout ids
  -- the recursion also goes into the values of references and the attributes of objects
  have ih : ∀ w, sizeOf w < sizeOf v → Alike ids s onward w := fun w hw => alike honward w
  cases v with
  | null | bool b =>
    constructor
    · intro _ ctx _
      simp only [Value.dissolved, renderNode, renderAll]
      exact .pure rfl
    · intro _
      simp only [Value.dissolved, partsOf, Render.parts]
      exact .pure (.nil _)
  | int | float | str | raw | bytes | absent | fragmentType | helper | set | date | moment =>
    refine alike_of_isFramed (by simp [Value.dissolved]) (by simp only [partsOf]) fun _ ctx _ => ?_
    simp only [renderNode]
    exact .pure trivial
  | map entries =>
    refine alike_of_isFramed (by simp [Value.dissolved]) (by simp only [partsOf]) fun _ ctx _ => ?_
    simp only [renderNode]
    exact .throw _
  | closure name scope body traits =>
    refine alike_of_isFramed (by simp [Value.dissolved]) (by simp only [partsOf]) fun _ ctx _ => ?_
    simp only [renderNode]
    exact .throw _
  | object attributes =>
    by_cases hnested : Value.hasNested ids attributes = true
    · refine alike_object hnested (ih _ ?_)
      have := Value.sizeOf_givenChildren_le attributes
      simp
      omega
    · refine alike_of_isFramed (by rw [Value.dissolved, if_neg hnested]) (by simp only [partsOf])
        fun hv ctx hctx => ?_
      refine framed_object honward (fun w hw => (ih w ?_).isFramed) (hp.of_object hv) hctx
      simp
      omega
  | list items | tuple items =>
    refine alike_of_items (by rw [Value.dissolved]) (fun ctx => by rw [renderNode]) (by rw [partsOf])
      fun w hw => ih w ?_
    have := List.sizeOf_lt_of_mem hw
    simp
    omega
  | generator id items =>
    have hitems : ∀ w ∈ items, Alike ids s onward w := fun w hw => ih w (by
      have := List.sizeOf_lt_of_mem hw
      simp
      omega)
    by_cases hid : id ∈ ids
    · exact alike_generator hid hitems
    · exact alike_generator_other hid hitems
  | element type props children =>
    have hvalue : Alike ids s onward (Mapping.getD "value" props) := ih _ (by
      have := Mapping.sizeOf_getD_le "value" props
      simp
      omega)
    have hchildren : ∀ w ∈ children, Alike ids s onward w := fun w hw => ih w (by
      have := List.sizeOf_lt_of_mem hw
      simp
      omega)
    exact alike_element honward hvalue hchildren
termination_by sizeOf v

end Alike

/-! ### Renderings -/

/-- A tree is rendered as what it comes to, however deep it goes on in other trees. -/
theorem goesOn_renderWithin (ids : List ℕ) (s : Setting) (depth : ℕ) :
    GoesOn ids s.mode (renderWithin s depth) := by
  induction depth with
  | zero => exact fun _ _ _ _ => .throw _
  | succ depth ih =>
    intro ctx v hctx hfits
    have hsame := (alike ih v).node hfits ctx hctx
    rw [renderWithin, renderWithin, renderNode]
    exact hsame

/-- **Nesting.** Two trees that come to the same nodes when nested children are dissolved render to the same
markup, or fail with the same failure, in every context and in both modes. The generators that are dissolved
are new: they are nowhere else in the trees and in the context, and nobody has read them; and in previews none
of them is in the body of a loop. -/
theorem render_regrouped (s : Setting) {ids : List ℕ} {ctx : Context} (hctx : ctx.IsWithout ids)
    {v w : Value} (hv : (v.dissolved ids).Fits ids s.mode) (hw : (w.dissolved ids).Fits ids s.mode)
    (hsame : (v.dissolved ids).nodes = (w.dissolved ids).nodes) {session : Session}
    (hmade : ∀ id ∈ ids, id < session.made) (hundrawn : ∀ id ∈ ids, session.count id = 0) :
    (render s ctx v session).map Prod.fst = (render s ctx w session).map Prod.fst := by
  have hagrees : session.Agrees ids session := ⟨rfl, hmade, fun _ _ => rfl⟩
  -- both trees are compared with the nodes that they come to, in the same session
  have hnodes : ∀ u : Value, (u.dissolved ids).Fits ids s.mode →
      (render s ctx u session).map Prod.fst =
        (render s ctx (.tuple (u.dissolved ids).nodes) session).map Prod.fst := by
    intro u hu
    have hrun := goesOn_renderWithin ids s depthLimit ctx u hctx hu session session hagrees
      fun id hid => hundrawn id (Value.own_dissolved_subset ids u hid)
    unfold render
    generalize renderWithin s depthLimit ctx u session = x at hrun ⊢
    generalize renderWithin s depthLimit ctx (.tuple (u.dissolved ids).nodes) session = y at hrun ⊢
    cases hrun with
    | error failure => rfl
    | ok related _ _ => exact congrArg Except.ok related
  rw [hnodes v hv, hnodes w hw, hsame]

/-- A conditional whose children are nested in a generator and lists. -/
def nestedRegions : Value :=
  Element.ifThen (.str "open")
    [.generator 0 [.str "yes", .null], .list [.bool true, .tuple [Element.otherwise [.str "no"]]]]

/-- The conditional with its children one after the other. -/
def flatRegions : Value := Element.ifThen (.str "open") [.str "yes", Element.otherwise [.str "no"]]

theorem render_nestedRegions :
    ((nestedRegions.dissolved [0]).nodes = (flatRegions.dissolved [0]).nodes ∧
      (nestedRegions.dissolved [0]).own = [0]) ∧
    (render ⟨.preview, false⟩ { data := .map [(.str "open", .bool false)] } nestedRegions { made := 1 }).map
        Prod.fst =
      (render ⟨.preview, false⟩ { data := .map [(.str "open", .bool false)] } flatRegions { made := 1 }).map
        Prod.fst := by
  have hnested : nestedRegions.dissolved [0] = ⟨[flatRegions], [], [0], []⟩ := by
    simp [nestedRegions, flatRegions, Element.ifThen, Element.otherwise, Value.dissolved, Value.dissolvedAll,
      Dissolved.append, Dissolved.around, Dissolved.own]
  have hflat : flatRegions.dissolved [0] = ⟨[flatRegions], [], [], []⟩ := by
    simp [flatRegions, Element.ifThen, Element.otherwise, Value.dissolved, Value.dissolvedAll,
      Dissolved.append, Dissolved.around, Dissolved.own]
  have hwithout : flatRegions.IsWithout [0] := by
    have hother : (Element.otherwise [.str "no"]).IsWithout [0] :=
      Element.isWithout_element (.helper _) (List.forall_mem_nil _) (List.forall_mem_singleton.mpr (.str _))
    refine Element.isWithout_element (.helper _) (List.forall_mem_singleton.mpr ⟨.str _, .str _⟩) ?_
    exact List.forall_mem_cons.mpr ⟨.str _, List.forall_mem_singleton.mpr hother⟩
  have hctx : ({ data := .map [(.str "open", .bool false)] } : Context).IsWithout [0] := by
    refine ⟨(Value.hereditary_isWithout [0]).map ?_, nofun, nofun⟩
    exact List.forall_mem_singleton.mpr ⟨.str _, .bool _⟩
  refine ⟨by simp [hnested, hflat, Dissolved.own], render_regrouped _ hctx ?_ ?_ ?_ ?_ ?_⟩
  · rw [hnested]
    exact ⟨List.nodup_singleton 0, List.forall_mem_singleton.mpr hwithout, fun _ => rfl⟩
  · rw [hflat]
    exact ⟨List.nodup_nil, List.forall_mem_singleton.mpr hwithout, fun _ => rfl⟩
  · rw [hnested, hflat]
  · simp
  · simp [Session.count]

/-- A loop whose body is given by a generator. -/
def generatedLoop : Value := Element.each (.str "xs") [.generator 0 [.str "a"]] .null

/-- The loop with its body as it is. -/
def plainLoop : Value := Element.each (.str "xs") [.str "a"] .null

/-- A context of an array of two items. -/
def twoItems : Context := { data := .map [(.str "xs", .list [.int 1, .int 2])] }

/-- **Loops of previews.** The body of a loop that a generator gives is shown for the first item only. -/
theorem preview_loop_ne :
    (generatedLoop.dissolved [0]).nodes = (plainLoop.dissolved [0]).nodes ∧
      (render ⟨.preview, false⟩ twoItems generatedLoop { made := 1 }).map Prod.fst = .ok ['a'] ∧
      (render ⟨.preview, false⟩ twoItems plainLoop { made := 1 }).map Prod.fst = .ok ['a', 'a'] := by
  have heach : ∀ body, previewEach body twoItems (.str "xs") .null =
      renderItems body (fun index => { twoItems with
        loop := some ⟨"xs", .list [.int 1, .int 2], some index, .null⟩ }) 0 [.int 1, .int 2] := by
    have hdata : twoItems.scopedData = .ok twoItems.data := rfl
    have hholds : Condition.evaluate (.str "xs") twoItems.data = .ok true :=
      (Condition.evaluate_str "xs" rfl).trans rfl
    intro body
    simp only [previewEach, hdata, liftM_ok, pure_bind, hholds]
    rfl
  have htext : ∀ onward, renderNode ⟨.preview, false⟩ onward (.str "a") = fun _ => pure ['a'] := by
    intro onward
    funext ctx
    simp only [renderNode]
    rfl
  refine ⟨?_, ?_, ?_⟩
  · simp [generatedLoop, plainLoop, Element.each, Value.dissolved, Value.dissolvedAll, Dissolved.append,
      Dissolved.around]
  · change (renderNode ⟨.preview, false⟩ (renderWithin ⟨.preview, false⟩ 999) generatedLoop twoItems
      _).map _ = _
    simp only [generatedLoop, Element.each, renderNode]
    refine (congrArg (Except.map Prod.fst) (congrFun (heach _) _)).trans ?_
    simp only [parts, partsOf, partsFrom, htext]
    rfl
  · change (renderNode ⟨.preview, false⟩ (renderWithin ⟨.preview, false⟩ 999) plainLoop twoItems
      _).map _ = _
    simp only [plainLoop, Element.each, renderNode]
    refine (congrArg (Except.map Prod.fst) (congrFun (heach _) _)).trans ?_
    simp only [parts, partsOf, htext]
    rfl

end Stencil.Render
