import Stencil.Proofs.Component.Tree
import Stencil.Render.Tree

/-!
# Rendering a tree for a template

What `Component.Tree.draft` says rendering comes to is what `renderNode` does: the paths of the draft
are read, in order, and the text that is written is that of its outline (`gives_draft`). Together with
the compilation of outlines this is the main statement, `lowerTags_render`: **the markup that a tree is
rendered to is lowered to the bottom-up compilation of the tree.**

Rendering fails only where a path is read that has a position of too many digits.
-/

namespace Stencil.Render

open Text Template Component

/-! ### Work that comes to a draft -/

/-- Reads paths, one after the other. -/
def readAll (paths : List Text) : Except Failure Unit := paths.forM fun path => do
  let _ ← Path.read path

/-- Reading paths one after the other is reading the first ones and then the others. -/
theorem readAll_append (p q : List Text) :
    readAll (p ++ q) = (do readAll p; readAll q) := List.forM_append

theorem readAll_singleton (path : Text) : readAll [path] = (Path.read path).map fun _ => () := by
  change (do (do let _ ← Path.read path); pure ()) = _
  cases Path.read path <;> rfl

/-- A path that can be read is read as its steps. -/
theorem eq_parse_of_read {path : Text} {p : Path} (h : Path.read path = .ok p) :
    p = Path.parse path := by
  unfold Path.read at h
  cases hfields : (Path.fields path).forM Path.checkField with
  | error failure =>
    rw [hfields] at h
    cases h
  | ok =>
    rw [hfields] at h
    cases h
    rfl

/-- Work that reads paths and yields a value; it leaves generators as they are. -/
def Yields {α : Type} (x : Pass α) (paths : List Text) (a : α) : Prop :=
  ∀ session, x session = (readAll paths).map fun _ => (a, session)

namespace Yields

variable {α β : Type} {x : Pass α} {f : α → Pass β} {p q : List Text} {a : α} {b : β}

theorem pure (a : α) : Yields (Pure.pure a) [] a := fun _ => rfl

/-- Work in two steps reads the paths of both. -/
theorem bind (hx : Yields x p a) (hf : Yields (f a) q b) : Yields (x >>= f) (p ++ q) b := by
  intro session
  simp only [Bind.bind, StateT.bind, hx session, readAll_append]
  cases readAll p with
  | error failure => rfl
  | ok => exact hf session

theorem congr {b : α} (h : Yields x p a) (hp : p = q) (ha : a = b) : Yields x q b := by
  subst hp ha
  exact h

/-- Work that yields a value without reading a path. -/
theorem of_ok (h : ∀ session, x session = .ok (a, session)) : Yields x [] a := h

end Yields

/-- Work that reads the paths of a draft and yields the text of its outline. -/
def Gives (x : Pass Text) (d : Draft) : Prop := Yields x d.reads d.outline.written

namespace Gives

variable {x y : Pass Text} {d e : Draft}

/-- Two texts that are given are given one behind the other. -/
theorem append (hx : Gives x d) (hy : Gives y e) :
    Gives (do let t ← x; let u ← y; pure (t ++ u)) (d.append e) := by
  have h := Yields.bind (f := fun t => do let u ← y; pure (t ++ u)) hx
    (hy.bind (f := fun u => pure (d.outline.written ++ u)) (.pure _))
  rw [List.append_nil] at h
  rw [Gives, Draft.append, Outline.written_append]
  exact h

end Gives

/-- Parts side by side are rendered one behind the other. -/
theorem renderParts_append (ctx : Context) (ps qs : List Part) :
    renderParts ctx (ps ++ qs) = (do
      let t ← renderParts ctx ps
      let u ← renderParts ctx qs
      pure (t ++ u)) := by
  induction ps with
  | nil => simp [renderParts]
  | cons p ps ih =>
    simp only [List.cons_append, renderParts, ih, bind_assoc, pure_bind, List.append_assoc]

/-! ### Contexts -/

/-- A context with some markers, in no loop or in one whose item can be had. -/
inductive Suits (markers : Option Marker.Registry) : Context → Option Enclosing → Prop where
  | outside (data : Value) : Suits markers { data, markers } none
  | inside (data : Value) (l : LoopScope) (e : Enclosing) (path : l.path.toList = e.path)
      (named : l.itemVar = nameValue e.itemVar) (current : ∃ item, l.current = .ok item) :
      Suits markers { data, loop := some l, markers } (some e)

theorem text?_str (s : String) : (Value.str s).text? = some s := rfl

section Suits

variable {markers : Option Marker.Registry} {ctx : Context} {loop : Option Enclosing}

/-- In a suitable context the data in scope is there. -/
theorem Suits.exists_scopedData (h : Suits markers ctx loop) :
    ∃ data, ctx.scopedData = .ok data := by
  cases h with
  | outside data => exact ⟨data, rfl⟩
  | inside data l e path named current =>
    obtain ⟨item, hitem⟩ := current
    cases data with
    | map entries =>
      unfold Context.scopedData
      simp only [hitem, named, checkKey_nameValue, bind, Except.bind]
      split
      · exact ⟨_, rfl⟩
      · split <;> exact ⟨_, rfl⟩
    | _ => exact ⟨_, rfl⟩

/-- A loop takes its word for the item off a path. -/
theorem relative_str {l : LoopScope} {itemVar : Option String} (h : l.itemVar = nameValue itemVar)
    (path : String) : l.relative (.str path) = .ok (relativePath path.toList itemVar) := by
  simp only [LoopScope.relative, pathText, text?_str, checkName_nameValue h, h, text?_nameValue,
    bind, Except.bind]
  rfl

/-- In a suitable context a path is made absolute by the loop. -/
theorem Suits.absolutePath (h : Suits markers ctx loop) (path : String) :
    absolutePath (.str path) ctx.loop = .ok (.str (String.ofList (absolute loop path.toList))) := by
  cases h with
  | outside data => simp [absolute]
  | inside data l e hpath named current =>
    simp only [Render.absolutePath, relative_str named, text?_str, absolute, hpath, named,
      text?_nameValue, bind, Except.bind]
    rfl

/-- The loop around the body of a loop, for the item that stands for all items. -/
def loopScope (loop : Option Enclosing) (array : ArrayPath) (itemVar : Option PlainName)
    (item : Value) : LoopScope :=
  ⟨String.ofList (absolute loop array.name.toList), .list [item], some 0, Tree.itemVarValue itemVar⟩

/-- In the body of a loop the context suits the loop. -/
theorem Suits.body (h : Suits markers ctx loop) (array : ArrayPath) (itemVar : Option PlainName)
    (item : Value) : Suits markers { ctx with loop := some (loopScope loop array itemVar item) }
      (some (Tree.enclosing loop array itemVar)) := by
  cases h with
  | outside data => exact .inside data _ _ (by simp [loopScope, Tree.enclosing]) rfl ⟨_, rfl⟩
  | inside data => exact .inside data _ _ (by simp [loopScope, Tree.enclosing]) rfl ⟨_, rfl⟩

end Suits

/-! ### Children -/

/-- Parts that come to what regions say, in a context. -/
inductive Fits (comesTo : Pass Text → Draft → Prop) (ctx : Context) : List Part → Regions → Prop where
  | plain (ps : List Part) (d : Draft)
      (noRegion : ∀ p ∈ ps, p.node.helper? ≠ some .otherwise) (all : comesTo (renderParts ctx ps) d) :
      Fits comesTo ctx ps (.plain d)
  | split (before after : List Part) (region : Part) (d e f : Draft)
      (noRegion : ∀ p ∈ before, p.node.helper? ≠ some .otherwise)
      (isRegion : region.node.helper? = some .otherwise)
      (first : comesTo (renderParts ctx before) d) (alternative : comesTo (region.render ctx) e)
      (last : comesTo (renderParts ctx after) f) :
      Fits comesTo ctx (before ++ region :: after) (.split d e f)

/-- Without an alternative all parts come first. -/
theorem splitParts_of_forall {ps : List Part} (h : ∀ p ∈ ps, p.node.helper? ≠ some .otherwise) :
    splitParts ps = (ps, none, []) := by
  induction ps with
  | nil => rfl
  | cons p ps ih => simp [splitParts, h p (by simp), ih fun q hq => h q (by simp [hq])]

/-- The first alternative parts what is before it from what is behind it. -/
theorem splitParts_append {before after : List Part} {region : Part}
    (h : ∀ p ∈ before, p.node.helper? ≠ some .otherwise)
    (hregion : region.node.helper? = some .otherwise) :
    splitParts (before ++ region :: after) = (before, some region, after) := by
  induction before with
  | nil => simp [splitParts, hregion]
  | cons p ps ih => simp [splitParts, h p (by simp), ih fun q hq => h q (by simp [hq])]

namespace Fits

variable {comesTo : Pass Text → Draft → Prop} {ctx : Context} {ps qs : List Part} {r s : Regions}
  (happend : ∀ {x y d e}, comesTo x d → comesTo y e →
    comesTo (do let t ← x; let u ← y; pure (t ++ u)) (d.append e))

include happend

/-- Parts that fit come to the whole of their region. -/
theorem whole (h : Fits comesTo ctx ps r) : comesTo (renderParts ctx ps) r.whole := by
  cases h with
  | plain _ d _ all => exact all
  | split before after region d e f _ _ first alternative last =>
    rw [renderParts_append]
    exact happend first (happend alternative last)

/-- Parts that fit do so side by side. -/
theorem append (hp : Fits comesTo ctx ps r) (hq : Fits comesTo ctx qs s) :
    Fits comesTo ctx (ps ++ qs) (r.append s) := by
  have hwhole := hq.whole happend
  cases hp with
  | plain _ d noRegion all =>
    cases hq with
    | plain _ d' noRegion' all' =>
      refine .plain _ _ (List.forall_mem_append.mpr ⟨noRegion, noRegion'⟩) ?_
      rw [renderParts_append]
      exact happend all all'
    | split before after region d' e f noRegion' isRegion first alternative last =>
      rw [← List.append_assoc]
      refine .split _ _ _ _ _ _ (List.forall_mem_append.mpr ⟨noRegion, noRegion'⟩) isRegion ?_
        alternative last
      rw [renderParts_append]
      exact happend all first
  | split before after region d e f noRegion isRegion first alternative last =>
    rw [List.append_assoc, List.cons_append]
    refine .split _ _ _ _ _ _ noRegion isRegion first alternative ?_
    rw [renderParts_append]
    exact happend last hwhole

end Fits

/-! ### Pseudo-tags -/

/-- A value that is shown gives its escaped display. -/
theorem gives_shown (v : Value) : Gives (pure (Markup.escape v.display)) (Tree.shown v) := by
  simpa [Gives, Tree.shown, Draft.run, Outline.written] using
    Yields.pure (Markup.escape v.display)

/-- The opening tag of a conditional, as it is written out. -/
theorem ifTag_literal (condition : Text) :
    "<hb-if condition=\"".toList ++ Markup.escape condition ++ "\">".toList = ifTag condition := by
  simp [ifTag, writtenAttribute, ifOpening_eq]

/-- Conditionals are written around what their children come to. -/
theorem gives_renderIfTag {ctx : Context} {ps : List Part} {r : Regions} (h : Fits Gives ctx ps r)
    (condition : Text) : Gives (renderIfTag ctx condition ps) (r.underCondition condition) := by
  cases h with
  | plain _ d noRegion gives =>
    simp only [renderIfTag, splitParts_of_forall noRegion, ifTag_literal]
    refine .congr (.bind gives (.bind (.pure _) (.bind (.pure _) (.pure _)))) ?_ ?_
    · simp [Regions.underCondition]
    · simp [Regions.underCondition, Outline.written]
      rfl
  | split before after region d e f noRegion isRegion before_gives region_gives after_gives =>
    simp only [renderIfTag, splitParts_append noRegion isRegion, ifTag_literal]
    refine .congr (.bind before_gives (.bind region_gives (.bind (.pure _)
      (.bind after_gives (.pure _))))) ?_ ?_
    · simp [Regions.underCondition]
    · simp [Regions.underCondition, Outline.written]
      rfl

/-- The opening tag of a loop shows its path and, if it has one, its item variable. -/
theorem eachTag_literal {head : LoopHead} {path itemVar : Value} (hpath : head.array = path.display)
    (hitem : head.itemVar = if itemVar.holds then some itemVar.display else none) :
    "<hb-each array=\"".toList ++ Markup.escapeAttribute path ++ ['"'] ++ itemVarAttribute itemVar ++
      ['>'] = head.tag := by
  have hattribute : itemVarAttribute itemVar =
      (head.itemVar.map (writtenAttribute "itemVar".toList)).getD [] := by
    rw [hitem, itemVarAttribute]
    split_ifs <;> simp [writtenAttribute, Markup.escapeAttribute]
  rw [hattribute]
  simp [LoopHead.tag, LoopHead.attributes, writtenAttribute, eachOpening_eq, hpath, Markup.escapeAttribute]

/-- What is written around the body of a loop. -/
private theorem tag_head (loop : Option Enclosing) (array : ArrayPath) (itemVar : Option PlainName) :
    "<hb-each array=\"".toList ++
        Markup.escapeAttribute (.str (String.ofList (absolute loop array.name.toList))) ++ ['"'] ++
        itemVarAttribute (Tree.itemVarValue itemVar) ++ ['>'] =
      (Tree.head loop array itemVar).tag := by
  refine eachTag_literal (by simp [Tree.head]) ?_
  cases itemVar with
  | none => rfl
  | some v => simp [Tree.itemVarValue, nameValue, Tree.head, Value.holds, Option.filter]

/-- Resolving a given path reads it, and finds what is there. -/
theorem yields_resolveGiven (path : String) (data : Value) :
    Yields (resolveGiven (.str path) data) [path.toList] (data.resolve path.toList) := by
  intro session
  rw [readAll_singleton]
  cases h : Path.read path.toList with
  | error failure =>
    simp only [resolveGiven, text?_str, Value.lookup, h]
    rfl
  | ok p =>
    simp only [resolveGiven, text?_str, Value.lookup, h, Value.resolve, ← eq_parse_of_read h]
    rfl

/-- Loops are written around what their body comes to, for the item that stands for all items. -/
theorem gives_markersEach {markers : Option Marker.Registry} {ctx : Context}
    {loop : Option Enclosing} (hsuits : Suits markers ctx loop)
    {body : Context → Value → ℕ → Pass Text} {array : ArrayPath} {itemVar : Option PlainName}
    {d : Draft} (hbody : ∀ {data item}, ctx.scopedData = .ok data →
      item = representative (data.resolve array.name.toList) →
      Gives (body { ctx with loop := some (loopScope loop array itemVar item) } item 0) d) :
    Gives (markersEach body ctx (.str array.name) (Tree.itemVarValue itemVar))
      ⟨array.name.toList :: d.reads, .loop (Tree.head loop array itemVar) d.outline .done⟩ := by
  obtain ⟨data, hdata⟩ := hsuits.exists_scopedData
  have hpath := hsuits.absolutePath array.name
  have hshown : Value.displayString (.str (String.ofList (absolute loop array.name.toList))) =
      String.ofList (absolute loop array.name.toList) := by simp [Value.displayString]
  have hinside : Yields (body { ctx with loop := some ⟨Value.displayString (.str (String.ofList
      (absolute loop array.name.toList))), .list [representative (data.resolve array.name.toList)],
      some 0, Tree.itemVarValue itemVar⟩ } (representative (data.resolve array.name.toList)) 0)
      d.reads d.outline.written := by
    rw [hshown]
    exact hbody hdata rfl
  unfold markersEach
  refine .congr (.bind (.of_ok (a := data) fun session => by rw [hdata]; rfl)
    (.bind (yields_resolveGiven array.name data)
      (.bind (.of_ok (a := .str (String.ofList (absolute loop array.name.toList))) fun session => by
          rw [hpath]; rfl)
        (.bind hinside (.pure _))))) ?_ ?_
  · simp
  · simp only [Outline.written, ← tag_head, List.append_assoc, List.append_nil]
    rfl

/-- A loop for a template is a pseudo-tag. -/
theorem renderNode_each (isBuilding : Bool) (onward : Context → Value → Pass Text)
    (array : ArrayPath) (itemVar : Option PlainName) (children : List Value) (ctx : Context) :
    renderNode ⟨.markers, isBuilding⟩ onward
        (Element.each (.str array.name) children (Tree.itemVarValue itemVar)) ctx =
      markersEach (renderBody ⟨.markers, isBuilding⟩ onward
          (Render.parts ⟨.markers, isBuilding⟩ onward children)) ctx
        (.str array.name) (Tree.itemVarValue itemVar) := by
  have harray : (Value.str array.name).holds = true := by
    simpa [Value.holds] using array.ne_nil
  simp only [Element.each, renderNode, Mapping.getD, Mapping.at?, Mapping.get?, Value.sameKey_str]
  simp [givenText, harray]

section Trees

variable (isBuilding : Bool) (onward : Context → Value → Pass Text)

/-- A value that renders for a template as regions say, alone and as a child. -/
structure Renders (v : Value) (r : Option Enclosing → Regions) : Prop where
  node : ∀ ⦃ctx loop⦄, Suits none ctx loop →
    Gives (renderNode ⟨.markers, isBuilding⟩ onward v ctx) (r loop).whole
  parts : ∃ ps, (∀ session, partsOf ⟨.markers, isBuilding⟩ onward v session = .ok (ps, session)) ∧
    (∀ p ∈ ps, p.node.isClosure = false) ∧ ∀ ⦃ctx loop⦄, Suits none ctx loop → Fits Gives ctx ps (r loop)

/-- Values that render for a template as regions say, one after the other and as children. -/
structure RendersAll (vs : List Value) (r : Option Enclosing → Regions) : Prop where
  all : ∀ ⦃ctx loop⦄, Suits none ctx loop →
    Gives (renderAll ⟨.markers, isBuilding⟩ onward vs ctx) (r loop).whole
  parts : ∃ ps, (∀ session, Render.parts ⟨.markers, isBuilding⟩ onward vs session = .ok (ps, session)) ∧
    (∀ p ∈ ps, p.node.isClosure = false) ∧ ∀ ⦃ctx loop⦄, Suits none ctx loop → Fits Gives ctx ps (r loop)

variable {isBuilding onward}

/-- A child that is one part by itself, and no alternative. -/
theorem Renders.of_plain {v : Value} {d : Option Enclosing → Draft}
    (hparts : partsOf ⟨.markers, isBuilding⟩ onward v =
      pure [⟨v, renderNode ⟨.markers, isBuilding⟩ onward v⟩])
    (hclosure : v.isClosure = false) (hregion : v.helper? ≠ some .otherwise)
    (h : ∀ ⦃ctx loop⦄, Suits none ctx loop →
      Gives (renderNode ⟨.markers, isBuilding⟩ onward v ctx) (d loop)) :
    Renders isBuilding onward v fun loop => .plain (d loop) := by
  refine ⟨h,
    [⟨v, renderNode ⟨.markers, isBuilding⟩ onward v⟩], fun session => by rw [hparts]; rfl,
    by simpa using hclosure, fun ctx loop hsuits => .plain _ _ (by simpa using hregion) ?_⟩
  have hcons : Gives (renderParts ctx [⟨v, renderNode ⟨.markers, isBuilding⟩ onward v⟩])
      ((d loop).append .done) := Gives.append (h hsuits) (Yields.pure [])
  simpa using hcons

/-- A single child that is a tag's, fragment's or loop's only content is rendered as itself. -/
private theorem gives_renderBody {ctx : Context} {body : Pass (List Part)} {ps : List Part} {d : Draft}
    (hbody : ∀ session, body session = .ok (ps, session))
    (hclosure : ∀ p ∈ ps, p.node.isClosure = false) (h : Gives (renderParts ctx ps) d)
    (item : Value) (index : ℕ) :
    Gives (renderBody ⟨.markers, isBuilding⟩ onward body ctx item index) d := by
  unfold renderBody
  refine Yields.bind (.of_ok hbody) ?_
  split
  · next p =>
    rw [if_neg (by simp [hclosure p (by simp)])]
    exact h
  · exact h

/-- What has no parts renders as nothing. -/
theorem Renders.of_empty {v : Value}
    (hnode : ∀ ctx, renderNode ⟨.markers, isBuilding⟩ onward v ctx = pure [])
    (hparts : partsOf ⟨.markers, isBuilding⟩ onward v = pure []) :
    Renders isBuilding onward v fun _ => .plain .done := by
  refine ⟨fun ctx loop _ => ?_, [], fun session => by rw [hparts]; rfl, by simp,
    fun ctx loop _ => .plain [] _ (by simp) (.pure [])⟩
  rw [hnode]
  exact Yields.pure []

/-- A value that is displayed renders as its text. -/
theorem Renders.of_displayed {v : Value}
    (hparts : partsOf ⟨.markers, isBuilding⟩ onward v =
      pure [⟨v, renderNode ⟨.markers, isBuilding⟩ onward v⟩])
    (hclosure : v.isClosure = false) (hregion : v.helper? ≠ some .otherwise)
    (hnode : ∀ ctx, renderNode ⟨.markers, isBuilding⟩ onward v ctx = pure (Markup.escape v.display)) :
    Renders isBuilding onward v fun _ => .plain (Tree.shown v) :=
  .of_plain hparts hclosure hregion fun ctx _ _ => by
    rw [hnode]
    exact gives_shown v

/-! ### Values one after the other -/

section All

variable {v : Value} {vs : List Value} {r rs : Option Enclosing → Regions}

theorem RendersAll.nil : RendersAll isBuilding onward [] fun _ => .plain .done := by
  refine ⟨fun ctx loop _ => ?_, [], fun session => by simp only [Render.parts]; rfl, by simp,
    fun ctx loop _ => .plain [] _ (by simp) (.pure [])⟩
  simp only [renderAll]
  exact Yields.pure []

/-- Another node in front is rendered in front. -/
theorem RendersAll.cons (h : Renders isBuilding onward v r) (hall : RendersAll isBuilding onward vs rs) :
    RendersAll isBuilding onward (v :: vs) fun loop => (r loop).append (rs loop) := by
  obtain ⟨node, ps, hps, hclosure, hfits⟩ := h
  obtain ⟨all, qs, hqs, hclosure', hfits'⟩ := hall
  refine ⟨fun ctx loop hsuits => ?_, ps ++ qs, fun session => ?_,
    List.forall_mem_append.mpr ⟨hclosure, hclosure'⟩,
    fun ctx loop hsuits => (hfits hsuits).append Gives.append (hfits' hsuits)⟩
  · simp only [renderAll]
    rw [Regions.whole_append]
    exact (node hsuits).append (all hsuits)
  · simp only [Render.parts, bind, StateT.bind, hps session, Except.bind, hqs session]
    rfl

/-- The parts of a list are its children's. -/
theorem RendersAll.list (h : RendersAll isBuilding onward vs r) :
    Renders isBuilding onward (.list vs) r := by
  obtain ⟨all, ps, hps, hclosure, hfits⟩ := h
  refine ⟨fun _ _ hsuits => ?_, ps, fun session => ?_, hclosure, hfits⟩
  · simp only [renderNode]
    exact all hsuits
  · simp only [partsOf]
    exact hps session

/-- An alternative is one part, which begins the second branch of the conditional around it. -/
theorem RendersAll.otherwise (h : RendersAll isBuilding onward vs r) :
    Renders isBuilding onward (.element (.helper .otherwise) [] vs)
      fun loop => .split .done (r loop).whole .done := by
  refine ⟨fun ctx loop hsuits => ?_, [_], fun session => by simp [partsOf]; rfl,
    by simp [Value.isClosure], fun ctx loop hsuits => ?_⟩
  · simp only [renderNode]
    simpa [Regions.whole] using h.all hsuits
  · refine .split [] [] _ _ _ _ (by simp) rfl (.pure []) ?_ (.pure [])
    simp only [renderNode]
    exact h.all hsuits

end All

/-! ### Elements -/

private theorem renderAttributes_properties (attributes : List Property) :
    Markup.renderAttributes (Tree.properties attributes) =
      .ok (Tree.attributesText attributes) := by
  induction attributes with
  | nil => rfl
  | cons entry rest ih =>
    simp only [Tree.properties, List.map_cons, Markup.renderAttributes, text?_str] at ih ⊢
    rw [ih]
    rfl

/-- An attribute that is found is one of the properties. -/
private theorem exists_property_of_at? {attributes : List Property} {name : String} {v : Value}
    (h : (Tree.properties attributes).at? name = some v) :
    ∃ property ∈ attributes, property.name = name ∧ property.value = v := by
  induction attributes with
  | nil => simp [Tree.properties, Mapping.at?, Mapping.get?] at h
  | cons own rest ih =>
    have hcons : Tree.properties (own :: rest) =
        (.str own.name, own.value) :: Tree.properties rest := rfl
    rw [hcons, Mapping.at?, Mapping.get?] at h
    by_cases hname : own.name = name
    · rw [if_pos (by simpa using hname)] at h
      exact ⟨own, by simp, hname, Option.some.inj h⟩
    · rw [if_neg (by simpa using hname)] at h
      obtain ⟨property, hmem, hproperty⟩ := ih h
      exact ⟨property, by simp [hmem], hproperty⟩

private theorem innerMarkup?_properties (attributes : List Property) :
    Markup.innerMarkup? (Tree.properties attributes) = none := by
  rw [Markup.innerMarkup?, List.findSome?_eq_none_iff]
  intro name hname
  split
  · next entries hentries =>
    obtain ⟨property, -, rfl, hvalue⟩ := exists_property_of_at? hentries
    exact absurd hname (property.not_inner entries hvalue)
  · rfl

/-- The opening tag of an element has its attributes in it. -/
private theorem startTag_properties (tag : TagName) (attributes : List Property) :
    Markup.startTag tag.name (Tree.properties attributes) =
      .ok (Tree.shell tag attributes).opening := by
  rw [Markup.startTag, renderAttributes_properties]
  rfl

/-- An element is its tags around what is inside it, if it is not void. -/
theorem renderTag_properties (tag : TagName) (attributes : List Property) (inside : Pass Text) :
    renderTag tag.name (Tree.properties attributes) inside =
      if Markup.isVoid tag.name then pure (Tree.shell tag attributes).opening
      else (do
        let inner ← inside
        pure ((Tree.shell tag attributes).opening ++ inner ++ (Tree.shell tag attributes).closing)) := by
  have hopening : (liftM (Markup.startTag tag.name (Tree.properties attributes)) : Pass Text) =
      pure (Tree.shell tag attributes).opening := by
    rw [startTag_properties]
    rfl
  unfold renderTag
  rw [hopening, pure_bind, innerMarkup?_properties]
  rfl

/-- Elements are written around what is inside them. -/
theorem gives_renderTag {tag : TagName} {attributes : List Property}
    {inside : Pass Text} {d : Draft} (h : Gives inside d) :
    Gives (renderTag tag.name (Tree.properties attributes) inside)
      (Tree.elementDraft tag attributes d) := by
  have hclosing : (Tree.shell tag attributes).closing =
      if Markup.isVoid tag.name then [] else '<' :: '/' :: (tag.name.toList ++ ['>']) := rfl
  rw [renderTag_properties]
  by_cases hvoid : Markup.isVoid tag.name
  · rw [if_pos hvoid, Tree.elementDraft, if_pos hvoid]
    refine Yields.congr (.pure _) rfl ?_
    simp [Outline.written, hclosing, hvoid]
  · rw [if_neg hvoid, Tree.elementDraft, if_neg hvoid]
    refine Yields.congr (.bind h (.pure _)) (List.append_nil _) ?_
    simp [Outline.written]

/-! ### Value references -/

/-- A tree is null as a value exactly if it is nothing. -/
theorem isNull_toValue (t : Component.Tree) : t.toValue.isNull = t.isNothing := by
  cases t <;> rfl

private theorem nameReference_str (name : String) :
    nameReference none (givenText (.str name)) = .ok (Template.reference name) := by
  have hgiven : givenText (.str name) = .str name := by
    unfold givenText
    split
    · rfl
    · next h =>
      obtain rfl : name = "" := by simpa [Value.holds] using h
      rfl
  rw [hgiven]
  rfl

/-- References are written by their names, and inside a loop as parts of its item. -/
theorem gives_markersVal {ctx : Context} {loop : Option Enclosing} (hsuits : Suits none ctx loop)
    (name : PlainName) (value : Component.Tree) {rendering : Pass Text}
    (h : loop = none → Gives rendering (Tree.regions loop value).whole) :
    Gives (markersVal ctx (.str name.name) value.toValue rendering)
      (Tree.regions loop (.val name value)).whole := by
  cases hsuits with
  | outside data =>
    simp only [markersVal, isNull_toValue, Tree.regions]
    split
    · rw [nameReference_str]
      refine Yields.congr (.of_ok fun session => rfl) rfl ?_
      simp [Regions.whole, Draft.reference, Outline.written, Template.reference, braced]
    · exact h rfl
  | inside data l e path named current =>
    simp only [markersVal, Tree.regions]
    refine Yields.congr (.bind (.of_ok (a := relativePath name.name.toList e.itemVar) fun session => by
        rw [relative_str named]; rfl) (.pure _)) rfl ?_
    simp [Regions.whole, Draft.reference, Outline.written, Tree.itemPath, itemReference,
      Template.reference, braced]

/-! ### Every tree -/

mutual

theorem renders : (t : Component.Tree) → Renders isBuilding onward t.toValue fun loop => t.regions loop
  | .text s => by
    simp only [Tree.toValue, Tree.regions]
    exact .of_displayed (by simp [partsOf]) rfl (by simp [Value.helper?]) fun _ => by
      simp only [renderNode, Markup.escapeText]
  | .int i => by
    simp only [Tree.toValue, Tree.regions]
    exact .of_displayed (by simp [partsOf]) rfl (by simp [Value.helper?]) fun _ => by
      simp only [renderNode, Markup.escapeText]
  | .float x => by
    simp only [Tree.toValue, Tree.regions]
    exact .of_displayed (by simp [partsOf]) rfl (by simp [Value.helper?]) fun _ => by
      simp only [renderNode, Markup.escapeText]
  | .nothing => by
    simp only [Tree.toValue, Tree.regions]
    exact .of_empty (fun _ => by simp only [renderNode]) (by simp only [partsOf])
  | .truth b => by
    simp only [Tree.toValue, Tree.regions]
    exact .of_empty (fun _ => by simp only [renderNode]) (by simp only [partsOf])
  | .list items => by
    simp only [Tree.toValue, Tree.regions]
    exact (rendersAll items).list
  | .fragment children => by
    have h := (rendersAll children).all
    simp only [Tree.toValue, Tree.regions, Element.fragment]
    refine .of_plain (by simp [partsOf]) rfl (by simp [Value.helper?]) fun _ _ hsuits => ?_
    simp only [renderNode]
    exact h hsuits
  | .element tag attributes children => by
    have h := (rendersAll children).all
    simp only [Tree.toValue, Tree.regions]
    refine .of_plain (by simp [partsOf]) rfl (by simp [Value.helper?]) fun _ _ hsuits => ?_
    simp only [renderNode]
    exact gives_renderTag (h hsuits)
  | .ifThen condition children => by
    obtain ⟨-, ps, hps, -, hfits⟩ := rendersAll children
    simp only [Tree.toValue, Tree.regions, Element.ifThen]
    refine .of_plain (by simp [partsOf]) rfl (by simp [Value.helper?]) fun _ _ hsuits => ?_
    simp only [renderNode]
    refine Yields.bind (.of_ok hps) ?_
    exact gives_renderIfTag (hfits hsuits) condition.toList
  | .otherwise children => by
    simp only [Tree.toValue, Tree.regions, Element.otherwise]
    exact (rendersAll children).otherwise
  | .each array itemVar children => by
    obtain ⟨-, ps, hps, hclosure, hfits⟩ := rendersAll children
    simp only [Tree.toValue, Tree.regions]
    refine .of_plain (by simp [Element.each, partsOf]) rfl (by simp [Element.each, Value.helper?])
      fun _ _ hsuits => ?_
    rw [renderNode_each]
    exact gives_markersEach hsuits fun _ _ =>
      gives_renderBody hps hclosure ((hfits (hsuits.body array itemVar _)).whole Gives.append) _ _
  | .val name value => by
    have h := (renders value).node
    rw [funext fun loop => Tree.regions_val loop name value]
    simp only [Tree.toValue, Element.val]
    refine .of_plain (by simp [partsOf]) rfl (by simp [Value.helper?]) fun _ _ hsuits => ?_
    simp only [renderNode]
    simp only [Mapping.getD, Mapping.at?, Mapping.get?, Value.sameKey_str]
    exact gives_markersVal hsuits name value fun _ => h hsuits

theorem rendersAll : (ts : List Component.Tree) →
    RendersAll isBuilding onward (Tree.toValues ts) fun loop => Tree.regionsAll loop ts
  | [] => by
    simp only [Tree.toValues, Tree.regionsAll]
    exact .nil
  | t :: rest => by
    simp only [Tree.toValues, Tree.regionsAll]
    exact .cons (renders t) (rendersAll rest)

end

end Trees

/-- **Rendering.** A tree is rendered for a template as its draft says. -/
theorem gives_draft (isBuilding : Bool) (onward : Context → Value → Pass Text) (data : Value)
    (t : Component.Tree) :
    Gives (renderNode ⟨.markers, isBuilding⟩ onward t.toValue { data }) t.draft :=
  (renders t).node (.outside data)

/-! ### The template of a tree -/

/-- A tree rendered for a template, with the pseudo-tags lowered. -/
def rewritten (isBuilding : Bool) (data v : Value) : Except Failure Text := do
  let (markup, _) ← render ⟨.markers, isBuilding⟩ { data } v {}
  (lowerTags markup []).1

/-- What is lowered is the text of the outline. -/
theorem rewritten_eq (isBuilding : Bool) (data : Value) (t : Component.Tree) :
    rewritten isBuilding data t.toValue = (do
      readAll t.draft.reads
      (lowerTags t.draft.outline.written []).1) := by
  have h := gives_draft isBuilding (renderWithin ⟨.markers, isBuilding⟩ 999) data t {}
  rw [rewritten, render, depthLimit, renderWithin, h]
  cases readAll t.draft.reads <;> rfl

/-- A tree whose paths can be read and whose text is lowered has a template. -/
theorem rewritten_of_toOption (isBuilding : Bool) (data : Value) {t : Component.Tree} {template : Text}
    (hreads : readAll t.draft.reads = .ok ())
    (hlowered : (lowerTags t.draft.outline.written []).1.toOption = some template) :
    rewritten isBuilding data t.toValue = .ok template := by
  rw [rewritten_eq, hreads]
  cases hresult : (lowerTags t.draft.outline.written []).1 with
  | error failure => simp [hresult, Except.toOption] at hlowered
  | ok text =>
    rw [hresult] at hlowered
    exact congrArg Except.ok (Option.some.inj hlowered)

/-- **Rewriting refines compilation.** The markup of a tree with the pseudo-tags lowered is the
bottom-up compilation of the tree; it fails exactly where a path of an array cannot be read. -/
theorem rewritten_toValue (isBuilding : Bool) (data : Value) {t : Component.Tree} (h : t.Steady) :
    rewritten isBuilding data t.toValue = (readAll t.draft.reads).map fun _ => t.template := by
  obtain ⟨journal, hlowered⟩ := Outline.lowerTags_written h []
  rw [rewritten_eq, hlowered]
  cases readAll t.draft.reads <;> rfl

/-- A loop in a loop, around one element under a condition. -/
def receipt : Component.Tree :=
  .each ⟨⟨"items", by decide⟩, by decide⟩ (some ⟨"x", by decide⟩)
    [.element ⟨"li", by decide, by decide⟩ []
      [.ifThen "x.name && !x.hidden" [.val ⟨"x.name", by decide⟩ .nothing, .otherwise [.text "-"]]]]

theorem rewritten_receipt : receipt.Steady ∧ rewritten false .null receipt.toValue =
    .ok ("\x7b\x7b#each items as |x|\x7d\x7d<li>\x7b\x7b#if x.name\x7d\x7d" ++
      "\x7b\x7b#unless x.hidden\x7d\x7d\x7b\x7bthis.name\x7d\x7d\x7b\x7belse\x7d\x7d-" ++
      "\x7b\x7b/unless\x7d\x7d\x7b\x7belse\x7d\x7d-\x7b\x7b/if\x7d\x7d</li>" ++
      "\x7b\x7b/each\x7d\x7d").toList := by
  have hsteady : receipt.Steady := by decide +kernel
  refine ⟨hsteady, (rewritten_toValue false .null hsteady).trans ?_⟩
  have hread : readAll receipt.draft.reads = .ok () := rfl
  rw [hread]
  exact congrArg Except.ok (by decide +kernel)

/-- A loop whose path has a space in it, over an element whose tag begins like the path, inside another
loop. -/
def mixed : Component.Tree :=
  .each ⟨⟨"o", by decide⟩, by decide⟩ none
    [.each ⟨⟨"div title=\"a", by decide⟩, by decide⟩ (some ⟨"hb-each array=\"q\"", by decide⟩)
      [.element ⟨"div", by decide, by decide⟩ [⟨"title", .str "a.[0]", by decide, nofun⟩] [.text "x"]]]

/-- **Names of tags.** The item of the inner loop is named in the name of a tag, which makes an opening
tag of the element, and the outer loop is not lowered. -/
theorem rewritten_mixed_ne :
    ∃ text, rewritten false .null mixed.toValue = .ok text ∧ text ≠ mixed.template := by
  exact ⟨lowered mixed.draft.outline.written, rewritten_of_toOption false .null rfl (by decide +kernel),
    by decide +kernel⟩

end Stencil.Render
