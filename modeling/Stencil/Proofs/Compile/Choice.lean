import Stencil.Proofs.Compile.Passages
import Stencil.Proofs.Render.Rejected

/-!
# Conditions that are values

A `choice` is a component with a conditional whose condition is the value at a way in its properties, and
with a passage for each branch. With marked properties the condition is the token of the path, so that the
template asks for the value at the path. With real properties the condition is the value itself: a text
is read as a condition, and anything else is true or false by itself (`decided`).

So the main statement is `preview_choice_iff`: **the component compiles to a block over the path, and its
preview shows the branch that the block shows if and only if the value is no text, or a text that is not
empty and, read as a condition, true.**
-/

namespace Stencil.Compile

open Text Markup Template Component Render Marker

/-! ### Ways to scalars -/

/-- The way from a mapping to a scalar begins with a key. -/
theorem exists_eq_key_of_isScalar {entries : Mapping} {p : Path} {leaf : Value}
    (h : WayTo (.map entries) p leaf) (hleaf : IsScalar leaf) : ∃ name q, p = .key name :: q := by
  cases h with
  | here => exact hleaf.elim
  | entry found next => exact ⟨_, _, rfl⟩
  | first items => cases items

theorem isLeaf_of_isScalar {v : Value} (h : IsScalar v) : isLeaf v = true := by
  cases v <;> first | rfl | exact h.elim

/-- The steps of keys behind a name are a path of names. -/
private theorem isNamePath_stepsText {p : Path} (hkeys : PlainKeys p) (hnamed : ∀ i, .index i ∉ p)
    {name : Text} (hname : IsIdentifier name) : IsNamePath (name ++ stepsText p) := by
  induction p generalizing name with
  | nil => exact (List.append_nil name).symm ▸ .name hname
  | cons s p ih =>
    cases s with
    | key key =>
      have hkey : IsIdentifier key.toList := (hkeys key List.mem_cons_self).1
      refine .field hname (ih (fun other hmem => hkeys other (List.mem_cons_of_mem _ hmem)) ?_ hkey)
      exact fun i hi => hnamed i (List.mem_cons_of_mem _ hi)
    | index i => exact absurd List.mem_cons_self (hnamed i)

/-- The text of a way by keys is a path of names. -/
theorem isNamePath_pathTo {name : String} {p : Path} (hkeys : PlainKeys (.key name :: p))
    (hnamed : ∀ i, .index i ∉ Segment.key name :: p) :
    IsNamePath (pathTo "" (.key name :: p)).toList := by
  have hname : IsIdentifier name.toList := (hkeys name List.mem_cons_self).1
  rw [toList_pathTo_root hname.ne_nil]
  refine isNamePath_stepsText (fun other hmem => hkeys other (List.mem_cons_of_mem _ hmem)) ?_ hname
  exact fun i hi => hnamed i (List.mem_cons_of_mem _ hi)

/-! ### The component -/

/-- The component of a conditional on the value at a way, with a passage for each branch. -/
def choice (way : Path) (a b : Passage) : Value :=
  .closure "Choice" []
    (.provider (.ref "props" [])
      [.ifThen (.ref "props" way) (a.bodies "props" ++ [.otherwise (b.bodies "props")])]) []

/-- The block over a path with a passage for each branch, whose leaves are references. -/
def choiceTemplate (path : String) (a b : Passage) : Text :=
  let shown (p : Passage) : Text := spelledOut (fun r => reference (pathTo "" r)) p.glyphs
  "\x7b\x7b#if ".toList ++ path.toList ++ "\x7d\x7d".toList ++ shown a ++ "\x7b\x7belse\x7d\x7d".toList ++
    shown b ++ "\x7b\x7b/if\x7d\x7d".toList

/-- What a passage prints of some data. -/
def printedOf (data : Value) (p : Passage) : Text :=
  spelledOut (fun r => printed (data.select r)) p.glyphs

/-- How a preview decides on a value as a condition. -/
def decided (condition data : Value) : Except Failure Bool :=
  match condition.text? with
  | none => .ok condition.isTruthy
  | some _ => Condition.evaluate condition data

/-! ### Rendering -/

theorem evalAll_append (isBuilding : Bool) (scope : Scope) (u v : List Body) :
    Body.evalAll isBuilding scope (u ++ v) = (do
      let vs ← Body.evalAll isBuilding scope u
      let ws ← Body.evalAll isBuilding scope v
      pure (vs ++ ws)) := by
  induction u with
  | nil => simp only [List.nil_append, Body.evalAll, pure_bind, bind_pure]
  | cons b u ih => simp only [List.cons_append, Body.evalAll, ih, bind_assoc, pure_bind]

/-- Called with properties, the component is a provider of them around a conditional on the value at the
way, with what is at the ways of the passages in its branches. -/
theorem call_choice (isBuilding : Bool) (way : Path) (a b : Passage) (props : List (String × Value)) :
    let data : Value := .map (named props)
    Component.call isBuilding (choice way a b) (named props) = pure (Element.provider data
      [Element.ifThen (data.select way)
        (a.values data.select ++ [Element.otherwise (b.values data.select)])]) := by
  intro data
  have hscope : (List.lookup "props" (("props", data) :: props ++ [])).getD .null = data := rfl
  have hbodies : Body.evalAll isBuilding (("props", data) :: props ++ [])
      (a.bodies "props" ++ [.otherwise (b.bodies "props")]) =
        pure (a.values data.select ++ [Element.otherwise (b.values data.select)]) := by
    rw [evalAll_append, Passage.evalAll_bodies, hscope, Body.evalAll, Body.eval,
      Passage.evalAll_bodies, hscope]
    rfl
  rw [Component.call, arguments?_named]
  change Body.eval isBuilding (("props", data) :: props ++ []) _ = _
  rw [Body.eval, Body.evalAll, Body.eval, hbodies]
  rfl

/-- **Rendering.** With properties that have a scalar for every leaf, the component is rendered as the
conditional on what the way leads to, with two regions that are printed. -/
theorem renderComponent_choice (s : Setting) {props : List (String × Value)} (way : Path) {a b : Passage}
    (hleaves : ∀ r ∈ a.ways ++ b.ways, IsScalar ((Value.map (named props)).select r)) {depth : ℕ}
    (hdepth : 0 < depth) (ctx : Context) :
    ∃ before region, (∀ p ∈ before, p.node.helper? ≠ some .otherwise) ∧
      region.node.helper? = some .otherwise ∧
      (∀ ctx, renderParts ctx before = pure (printedOf (.map (named props)) a)) ∧
      (∀ ctx, region.render ctx = pure (printedOf (.map (named props)) b)) ∧
      renderComponent s depth ctx (choice way a b) (named props) =
        renderIf s { ctx with data := .map (named props) } ((Value.map (named props)).select way)
          (before ++ [region]) := by
  obtain ⟨depth, rfl⟩ : ∃ d, depth = d + 1 := ⟨depth - 1, by omega⟩
  rw [List.forall_mem_append] at hleaves
  set data : Value := .map (named props) with hdata
  set onward := renderWithin s depth with honward
  obtain ⟨-, before, hbefore, hnone, hrender⟩ :=
    Passage.isPrinted_values s onward hleaves.1
  have halternative := (Passage.isPrinted_values s onward hleaves.2).all
  set other := Element.otherwise (b.values data.select) with hother
  have hregion : ∀ ctx, renderNode s onward other ctx = pure (printedOf data b) := by
    intro ctx
    simp only [hother, Element.otherwise, renderNode]
    exact halternative ctx
  -- the alternative is a part of its own behind the parts of the first passage
  have hparts : Render.parts s onward (a.values data.select ++ [other]) =
      pure (before ++ [⟨other, renderNode s onward other⟩]) := by
    have hone : partsOf s onward other = pure [⟨other, renderNode s onward other⟩] := by
      simp only [hother, Element.otherwise, partsOf]
    rw [parts_append, hbefore]
    simp only [Render.parts, hone, pure_bind, List.append_nil]
  refine ⟨before, ⟨other, renderNode s onward other⟩, hnone, rfl, hrender, hregion, ?_⟩
  unfold renderComponent
  rw [call_choice s.isBuilding way a b props, ← hdata, ← hother, pure_bind, renderWithin]
  have hcondition : Mapping.getD "condition" [(.str "condition", data.select way)] = data.select way := rfl
  have hprovided : Mapping.getD "data" [(.str "data", data)] = data := rfl
  have hif : ∀ ctx,
      renderNode s onward (Element.ifThen (data.select way) (a.values data.select ++ [other])) ctx =
        renderIf s ctx (data.select way) (before ++ [⟨other, renderNode s onward other⟩]) := by
    intro ctx
    rw [Element.ifThen, renderNode, hcondition, hparts, pure_bind]
  rw [Element.provider, renderNode, hprovided, renderAll, hif, renderAll]
  simp only [pure_bind, List.append_nil, bind_pure]

/-- A preview of a conditional outside loops decides on its condition. -/
theorem renderIf_preview (isBuilding : Bool) {ctx : Context} (hloop : ctx.loop = none) (condition : Value)
    (ps : List Part) : renderIf ⟨.preview, isBuilding⟩ ctx condition ps = (do
      renderBranch ctx (← decided condition ctx.data) ps) := by
  have hdata : ctx.scopedData = .ok ctx.data := by
    rw [Context.scopedData, hloop]
    rfl
  rw [renderIf, decided]
  cases condition.text? with
  | none => rfl
  | some text =>
    dsimp only
    rw [hdata]
    rfl

/-- A conditional on a way to a scalar, around passages of the leaves of the sample, which stand apart. The
way goes through no list. -/
structure Chooses (sample : List (String × Value)) (way : Path) (leaf : Value) (a b : Passage) : Prop where
  leads : WayTo (.map (named sample)) way leaf
  isScalar : IsScalar leaf
  unlisted : ∀ i, .index i ∉ way
  leaves : ∀ r ∈ a.ways ++ b.ways, ∃ w, WayTo (.map (named sample)) r w ∧ IsScalar w
  keys : PlainKeys way ∧ ∀ r ∈ a.ways ++ b.ways, PlainKeys r
  clear : a.IsClear markerLead ∧ b.IsClear markerLead

section Choice

variable {sample : List (String × Value)} {way : Path} {leaf : Value} {a b : Passage}
  (h : Chooses sample way leaf a b)

include h

/-- **The preview.** The preview shows the branch that is decided on. -/
theorem preview_choice (isBuilding : Bool) (session : Session) :
    Compile.preview isBuilding (choice way a b) (.map (named sample)) session =
      (decided leaf (.map (named sample))).map fun holds =>
        (printedOf (.map (named sample)) (if holds then a else b), session) := by
  have hleaves : ∀ r ∈ a.ways ++ b.ways, IsScalar ((Value.map (named sample)).select r) := by
    intro r hr
    obtain ⟨w, hway, hscalar⟩ := h.leaves r hr
    rwa [hway.select_eq]
  obtain ⟨before, region, hnone, hregion, hbefore, halternative, hrender⟩ :=
    renderComponent_choice ⟨.preview, isBuilding⟩ way hleaves (show 0 < depthLimit by decide) {}
  have hdata : dataFor isBuilding (choice way a b) (.map (named sample)) = pure (named sample) := rfl
  have hbranch : ∀ ctx holds, renderBranch ctx holds (before ++ [region]) =
      pure (printedOf (.map (named sample)) (if holds then a else b)) := by
    intro ctx holds
    rw [renderBranch, splitParts_append hnone hregion]
    cases holds with
    | true => simpa using hbefore ctx
    | false => exact halternative ctx
  rw [Compile.preview, hdata, pure_bind, hrender, h.leads.select_eq, renderIf_preview isBuilding rfl]
  simp only [hbranch]
  cases decided leaf (.map (named sample)) <;> rfl

end Choice

/-! ### The template -/

/-- The glyphs of a choice, with the tags of the conditional around those of the passages. -/
private def choiceGlyphs (way : Path) (a b : Passage) : List Glyph :=
  plainGlyphs "<hb-if condition=".toList ++ .char '"' :: ([.leaf way] ++ .char '"' :: .char '>' ::
    (a.glyphs ++ .char '<' :: (plainGlyphs "hb-else".toList ++ .char '>' ::
      (b.glyphs ++ .char '<' :: plainGlyphs "/hb-else></hb-if>".toList))))

private theorem spelledOut_choiceGlyphs (shown : Path → Text) (way : Path) (a b : Passage) :
    spelledOut shown (choiceGlyphs way a b) = "<hb-if condition=".toList ++ '"' :: (shown way ++ '"' ::
      ([] ++ '>' :: (spelledOut shown a.glyphs ++ '<' :: ("hb-else".toList ++ '>' ::
        (spelledOut shown b.glyphs ++ '<' :: "/hb-else></hb-if>".toList))))) := by
  simp [choiceGlyphs]

/-- Every spelling of the glyphs is the text of a conditional around outlines of the passages. -/
private theorem exists_choice_outline (shown : Path → Text) {way : Path} {a b : Passage}
    (hway : escape (shown way) = shown way) (hshown : ∀ r ∈ a.ways ++ b.ways, '<' ∉ shown r) :
    ∃ oa ob : Outline, oa.written = spelledOut shown a.glyphs ∧ ob.written = spelledOut shown b.glyphs ∧
      (Outline.choice (shown way) oa ob .done .done).written = spelledOut shown (choiceGlyphs way a b) ∧
      (Outline.choice (shown way) oa ob .done .done).template =
        underConditionElse (shown way) (spelledOut shown b.glyphs) (spelledOut shown a.glyphs) ∧
      (Outline.choice (shown way) oa ob .done .done).Steady := by
  rw [List.forall_mem_append] at hshown
  obtain ⟨oa, hwritten, htemplate, hloops⟩ := Passage.exists_outline hshown.1
  obtain ⟨ob, hwritten', htemplate', hloops'⟩ := Passage.exists_outline hshown.2
  have htail : ifClosing = '<' :: "/hb-if>".toList ∧ elseOpening = '<' :: ("hb-else".toList ++ ['>']) ∧
      elseClosing = '<' :: "/hb-else>".toList := by decide
  have hend : "/hb-else></hb-if>".toList = "/hb-else>".toList ++ '<' :: "/hb-if>".toList := by decide
  refine ⟨oa, ob, hwritten, hwritten', ?_, ?_, .inl ⟨hloops _, hloops' _, trivial, trivial⟩⟩
  · rw [spelledOut_choiceGlyphs, hend, Outline.written, Outline.written, hwritten, hwritten',
      ifTag_eq, hway, htail.1, htail.2.1, htail.2.2]
    simp
  · simp [Outline.template, htemplate, htemplate']

/-- The glyphs of a choice are separated, no marker begins in their constants, and they have no attribute of
the host. -/
private theorem choiceGlyphs_clear {a b : Passage} (ha : a.IsClear markerLead) (hb : b.IsClear markerLead)
    (way : Path) :
    Separated (choiceGlyphs way a b) ∧ ¬ markerLead <:+: constants (choiceGlyphs way a b) ∧
      ∀ {shown : Path → Text}, (∀ r ∈ a.ways ++ b.ways, '"' ∉ shown r) → '"' ∉ shown way →
        '=' ∉ shown way → ¬ hostAttribute <:+: spelledOut shown (choiceGlyphs way a b) := by
  refine ⟨?_, ?_, fun {shown} hshown hquote hequals h => ?_⟩
  · have hleaf : Separated [.leaf way] := List.isChain_singleton _
    have hnil : Separated [] := List.isChain_nil
    have hrest := (separated_plainGlyphs "hb-else".toList).append_cons (c := '>') (by decide)
      (hb.separated.append_cons (c := '<') (by decide) (separated_plainGlyphs "/hb-else></hb-if>".toList))
    exact (separated_plainGlyphs _).append_cons (by decide) (hleaf.append_cons (by decide)
      (hnil.append_cons (by decide) (ha.separated.append_cons (by decide) hrest)))
  · rw [constants, spelledOut_choiceGlyphs]
    have hrest : ¬ markerLead <:+: "hb-else".toList ++ '>' ::
        (spelledOut (fun _ => []) b.glyphs ++ '<' :: "/hb-else></hb-if>".toList) :=
      not_infix_append_cons (by decide)
        (not_infix_append_cons hb.unmarked (by decide) (by decide)) (by decide)
    exact not_infix_append_cons (by decide) (not_infix_append_cons (by decide) (not_infix_append_cons
      (by decide) (not_infix_append_cons ha.unmarked hrest (by decide)) (by decide)) (by decide)) (by decide)
  · rw [spelledOut_choiceGlyphs] at h
    rw [List.forall_mem_append] at hshown
    have hrest : '"' ∉ [] ++ '>' :: (spelledOut shown a.glyphs ++ '<' :: ("hb-else".toList ++ '>' ::
        (spelledOut shown b.glyphs ++ '<' :: "/hb-else></hb-if>".toList))) := by
      have helse : '"' ∉ "hb-else".toList := by decide
      have hclosing : '"' ∉ "/hb-else></hb-if>".toList := by decide
      simp only [List.nil_append, List.mem_cons, List.mem_append, not_or]
      exact ⟨by decide, Passage.quote_not_mem_spelledOut hshown.1, by decide, helse, by decide,
        Passage.quote_not_mem_spelledOut hshown.2, by decide, hclosing⟩
    exact hostAttribute_not_infix_tag (by decide) ⟨hquote, hequals⟩ hrest h

/-- A text under a path is in its block. -/
private theorem underConditionElse_reference {path : String} (h : IsNamePath path.toList)
    (alternative body : Text) : underConditionElse (reference path) alternative body =
      "\x7b\x7b#if ".toList ++ path.toList ++ "\x7d\x7d".toList ++ body ++
        "\x7b\x7belse\x7d\x7d".toList ++ alternative ++ "\x7b\x7b/if\x7d\x7d".toList := by
  have hopening : "\x7b\x7b#if ".toList = '\x7b' :: '\x7b' :: '#' :: ("if".toList ++ [' ']) := by decide
  have hend : "\x7d\x7d".toList = ['\x7d', '\x7d'] := by decide
  have helse : "\x7b\x7belse\x7d\x7d".toList = Template.elseTag := by decide
  have hclosing : "\x7b\x7b/if\x7d\x7d".toList = braced ('/' :: "if".toList) := by decide
  have hunwrapped : unwrapped (reference path) = path.toList := (unwrapped_braced _).trans h.trim_eq
  rw [underConditionElse, hunwrapped, Condition.validateText_of_isNamePath h]
  dsimp only
  rw [Condition.blocks_of_isNamePath h, encloseWith, encloseWith, Block.of, hopening, hend, helse,
    hclosing]
  simp [braced]

/-- A reference to a path is written in an attribute as it is. -/
private theorem escape_reference {path : String} (h : IsJoined path.toList) :
    escape (reference path) = reference path := by
  have hall : ∀ x ∈ ['&', '<', '>', '"', '\''],
      isIdentifierChar x = false ∧ x ∉ ['.', '[', ']'] ∧ x ≠ '\x7b' ∧ x ≠ '\x7d' := by decide
  refine escape_of_not_mem fun x hx => ?_
  obtain ⟨hname, hjoin, hopen, hclose⟩ := hall x hx
  simp [Template.reference, h.not_mem hname hjoin, hopen, hclose]

/-- **Marking.** With a token for every leaf, the component is rendered as the conditional on the token of the
way, and its regions are outlines of the passages. -/
private theorem gives_choice (isBuilding : Bool) (markers : Registry) (marked : List (String × Value))
    (way : Path) {a b : Passage} {depth : ℕ} (hdepth : 0 < depth)
    (htoken : ∀ r ∈ way :: (a.ways ++ b.ways),
      (Value.map (named marked)).select r = .str (Shape.token {} (pathTo "" r)))
    {oa ob : Outline}
    (ha : oa.written = spelledOut (fun r => (Shape.token {} (pathTo "" r)).toList) a.glyphs)
    (hb : ob.written = spelledOut (fun r => (Shape.token {} (pathTo "" r)).toList) b.glyphs) :
    Gives (renderComponent ⟨.markers, isBuilding⟩ depth { markers := some markers } (choice way a b)
        (named marked))
      ((Regions.split ⟨[], oa⟩ ⟨[], ob⟩ .done).underCondition
        (Shape.token {} (pathTo "" way)).toList) := by
  obtain ⟨hway, hleaves⟩ := List.forall_mem_cons.mp htoken
  have hscalars : ∀ r ∈ a.ways ++ b.ways, IsScalar ((Value.map (named marked)).select r) :=
    fun r hr => by
      rw [hleaves r hr]
      trivial
  obtain ⟨before, region, hnone, hregion, hbefore, halternative, hcomponent⟩ :=
    renderComponent_choice ⟨.markers, isBuilding⟩ way hscalars hdepth { markers := some markers }
  obtain ⟨hleft, hright⟩ := List.forall_mem_append.mp hleaves
  rw [printedOf, spelledOut_printed hleft, ← ha] at hbefore
  rw [printedOf, spelledOut_printed hright, ← hb] at halternative
  rw [hcomponent, hway]
  refine gives_renderIfTag (.split before [] region _ _ _ hnone hregion ?_ ?_ ?_) _
  · rw [hbefore]
    exact Yields.pure _
  · rw [halternative]
    exact Yields.pure _
  · exact Yields.pure []

/-- The leaves of the text of a choice are its way and those of its passages. -/
private theorem mem_of_mem_choiceGlyphs {way r : Path} {a b : Passage} (hr : .leaf r ∈ choiceGlyphs way a b) :
    r ∈ way :: (a.ways ++ b.ways) := by
  have hcases : r = way ∨ .leaf r ∈ a.glyphs ∨ .leaf r ∈ b.glyphs := by
    simpa [choiceGlyphs, plainGlyphs] using hr
  rw [List.mem_cons, List.mem_append]
  exact hcases.imp_right (.imp Passage.mem_ways_of_mem_glyphs Passage.mem_ways_of_mem_glyphs)

section Template

variable {sample : List (String × Value)} {way : Path} {leaf : Value} {a b : Passage}
  (h : Chooses sample way leaf a b)

include h

private theorem Chooses.exists_scalar :
    ∀ r ∈ way :: (a.ways ++ b.ways), ∃ w, WayTo (.map (named sample)) r w ∧ IsScalar w :=
  List.forall_mem_cons.mpr ⟨⟨leaf, h.leads, h.isScalar⟩, h.leaves⟩

private theorem Chooses.isSpelled : ∀ r ∈ way :: (a.ways ++ b.ways), IsSpelled (pathTo "" r).toList := by
  intro r hr
  obtain ⟨w, hway, hscalar⟩ := h.exists_scalar r hr
  have hkeys : PlainKeys r := (List.forall_mem_cons (p := PlainKeys)).mpr h.keys r hr
  obtain ⟨name, rest, rfl⟩ := exists_eq_key_of_isScalar hway hscalar
  exact isSpelled_pathTo hkeys

private theorem Chooses.isNamePath : IsNamePath (pathTo "" way).toList := by
  obtain ⟨name, rest, hfirst⟩ := exists_eq_key_of_isScalar h.leads h.isScalar
  have hkeys := h.keys.1
  have hunlisted := h.unlisted
  rw [hfirst] at hkeys hunlisted ⊢
  exact isNamePath_pathTo hkeys hunlisted

/-- **Compiling a choice.** The component compiles to a block over the path of the way. -/
theorem exists_compiled_choice (isBuilding : Bool) {props : Mapping} {markers : Registry}
    (hmarked : markedProps {} (named sample) = (.ok props, markers)) {depth : ℕ} (hdepth : 0 < depth)
    (source : Option String) (session : Session) :
    ∃ compiled, Compile.template { depth } isBuilding (choice way a b) (.map (named sample)) source session =
        .ok (compiled, session) ∧
      compiled.text = choiceTemplate (pathTo "" way) a b := by
  have heach : MarksEntries {} "" (named sample) {} props markers :=
    marks_of_markEntries "" (named sample) hmarked
  obtain ⟨marked, rfl⟩ := exists_named heach
  -- in the marked copy there are tokens at the way and at the leaves of the passages
  have htoken : ∀ r ∈ way :: (a.ways ++ b.ways),
      (Value.map (named marked)).select r = .str (Shape.token {} (pathTo "" r)) ∧
        (Shape.token {} (pathTo "" r), pathTo "" r) ∈ markers.paths := by
    intro r hr
    obtain ⟨w, hway, hscalar⟩ := h.exists_scalar r hr
    obtain ⟨hcopy, hbound⟩ := hway.leaf_mark (isLeaf_of_isScalar hscalar) (.map heach)
    exact ⟨hcopy.select_eq, hbound⟩
  -- the markup is a conditional on a token, and the outline has a reference in its place
  obtain ⟨oa, ob, ha, hb, hwritten, -, -⟩ := exists_choice_outline
    (fun r => (Shape.token {} (pathTo "" r)).toList) (a := a) (b := b)
    (isJoined_token (pathTo "" way)).escape_eq fun r _ => not_mem_token (by decide) _
  obtain ⟨hway, hleaves⟩ := List.forall_mem_cons.mp h.isSpelled
  obtain ⟨oa', ob', -, -, hwritten', htemplate', hsteady⟩ := exists_choice_outline
    (fun r => reference (pathTo "" r)) (a := a) (b := b) (escape_reference hway.isJoined)
    fun r hr => angle_not_mem_braced ((hleaves r hr).isJoined.not_mem (by decide) (by decide))
  have hrender : renderMarkers { depth } isBuilding (choice way a b) (named sample) session =
      .ok (⟨(Outline.choice (Shape.token {} (pathTo "" way)).toList oa ob .done .done).written,
        markers⟩, session) := by
    have hgives := gives_choice isBuilding markers marked way hdepth
      (fun r hr => (htoken r hr).1) ha hb
    rw [renderMarkers, hmarked]
    exact Yields.bind (f := fun text => pure (⟨text, markers⟩ : Marked)) hgives (.pure _) session
  obtain ⟨hseparated, hunmarked, hquoted⟩ := choiceGlyphs_clear h.clear.1 h.clear.2 way
  have hclean := hquoted (fun r _ => not_mem_token (by decide) (pathTo "" r))
    (not_mem_token (by decide) (pathTo "" way)) (not_mem_token (by decide) (pathTo "" way))
  obtain ⟨compiled, hcompiled, htext⟩ := template_glyphs (heach.grows.2 (Registry.isSound_empty {}))
    hseparated hunmarked (fun r hr => (htoken r (mem_of_mem_choiceGlyphs hr)).2)
    (fun r hr => (h.isSpelled r (mem_of_mem_choiceGlyphs hr)).unmarked) hwritten (hwritten ▸ hclean)
    hwritten' hsteady hrender source
  refine ⟨compiled, hcompiled, htext.trans (htemplate'.trans ?_)⟩
  exact underConditionElse_reference h.isNamePath _ _

/-- The path of the way leads to the scalar in the data. -/
theorem lookup_pathTo : (Value.map (named sample)).lookup (pathTo "" way).toList = .ok leaf := by
  have hkeys : ∀ name, .key name ∈ way → Path.IsKey name := fun name hmem => by
    have hname := (h.keys.1 name hmem).1
    exact ⟨hname.isSeparator_of_mem, hname.all_isDigit⟩
  have hread := read_pathTo_of_isKey hkeys h.leads.isFirst (show Path.read "".toList = .ok [] from rfl)
  rw [List.nil_append] at hread
  rw [Value.lookup, hread]
  exact congrArg Except.ok h.leads.follow_eq

/-- A value is decided on as a block does exactly if it is no text, or one that is not empty and true. -/
private theorem decided_eq_isTruthy_iff (entries : Mapping) :
    decided leaf (.map entries) = .ok leaf.isTruthy ↔
      ∀ s, leaf = .str s → s ≠ "" ∧ Condition.evaluate (.str s) (.map entries) = .ok true := by
  have hempty : Condition.evaluate (.str "") (.map entries) = .ok true :=
    Condition.evaluate_of_stepless (by decide) entries
  constructor
  · rintro heq s rfl
    change Condition.evaluate (.str s) (.map entries) = _ at heq
    by_cases hs : s = ""
    · -- the empty text is false for a block and true for a preview
      subst hs
      rw [hempty] at heq
      exact absurd (Except.ok.inj heq) (by decide)
    · have htruthy : (Value.str s).isTruthy = true := by simp [Value.isTruthy, Value.holds, hs]
      exact ⟨hs, htruthy ▸ heq⟩
  · intro htext
    cases hleaf : leaf with
    | str s =>
      obtain ⟨hs, hholds⟩ := htext s hleaf
      have htruthy : (Value.str s).isTruthy = true := by simp [Value.isTruthy, Value.holds, hs]
      rw [htruthy]
      exact hholds
    | _ => first | rfl | exact (hleaf ▸ h.isScalar).elim

/-- **Conditions that are values.** The component compiles to a block over the path of the way, which leads to
the value. The preview shows the branch that is decided on. If the branches print different texts, this is
the one that the block shows if and only if the value is no text, or a text that is not empty and, read as a
condition, true. -/
theorem preview_choice_iff (isBuilding : Bool) {props : Mapping} {markers : Registry}
    (hmarked : markedProps {} (named sample) = (.ok props, markers)) {depth : ℕ} (hdepth : 0 < depth)
    (source : Option String) (session : Session) :
    (∃ compiled, Compile.template { depth } isBuilding (choice way a b) (.map (named sample)) source session =
        .ok (compiled, session) ∧
      compiled.text = choiceTemplate (pathTo "" way) a b) ∧
    (Value.map (named sample)).lookup (pathTo "" way).toList = .ok leaf ∧
    Compile.preview isBuilding (choice way a b) (.map (named sample)) session =
      (decided leaf (.map (named sample))).map (fun holds =>
        (printedOf (.map (named sample)) (if holds then a else b), session)) ∧
    (printedOf (.map (named sample)) a ≠ printedOf (.map (named sample)) b →
      (Compile.preview isBuilding (choice way a b) (.map (named sample)) session =
          .ok (printedOf (.map (named sample)) (if leaf.isTruthy then a else b), session) ↔
        ∀ s, leaf = .str s →
          s ≠ "" ∧ Condition.evaluate (.str s) (.map (named sample)) = .ok true)) := by
  have hpreview := preview_choice h isBuilding session
  refine ⟨exists_compiled_choice h isBuilding hmarked hdepth source session, lookup_pathTo h, hpreview,
    fun hne => ?_⟩
  rw [← decided_eq_isTruthy_iff h, hpreview]
  cases decided leaf (.map (named sample)) with
  | error failure => simp [Except.map]
  | ok holds =>
    -- different branches print different texts
    have hinjective : ∀ x y : Bool, printedOf (.map (named sample)) (if x then a else b) =
        printedOf (.map (named sample)) (if y then a else b) → x = y := by
      intro x y
      cases x <;> cases y <;> simp [hne, hne.symm]
    constructor
    · intro heq
      exact congrArg Except.ok (hinjective _ _ (congrArg Prod.fst (Except.ok.inj heq)))
    · intro heq
      rw [Except.ok.inj heq]
      rfl

end Template

/-- A text where a condition stands. -/
def answerSample : List (String × Value) := [("a", .str "yes")]

/-- A choice on the text, between two letters. -/
private theorem chooses_answer :
    Chooses answerSample [.key "a"] (.str "yes") (.text "A" .done) (.text "B" .done) := by
  have hname : IsIdentifier "a".toList ∧ ¬ markerLead <:+: "a".toList := by decide
  refine ⟨.entry rfl (.here _), trivial, by simp, by simp [Passage.ways],
    ⟨fun name hmem => ?_, by simp [Passage.ways]⟩, ⟨by decide, by decide⟩, ⟨by decide, by decide⟩⟩
  obtain rfl : name = "a" := by simpa using hmem
  exact hname

private theorem marked_answer : markedProps {} (named answerSample) =
    (.ok (named [("a", .str "__PROP_a__")]), ⟨[("__PROP_a__", "a")], [("a", "__PROP_a__")]⟩) := rfl

private theorem evaluate_answer :
    Condition.evaluate (.str "yes") (.map (named answerSample)) = .ok false :=
  (Condition.evaluate_str "yes" rfl).trans rfl

/-- A text that is not empty is true for the block, and as a path without a value it is false for the
preview. -/
theorem preview_choice_answer :
    (∃ compiled, Compile.template {} false (choice [.key "a"] (.text "A" .done) (.text "B" .done))
        (.map (named answerSample)) none {} = .ok (compiled, {}) ∧
      compiled.text = "\x7b\x7b#if a\x7d\x7dA\x7b\x7belse\x7d\x7dB\x7b\x7b/if\x7d\x7d".toList) ∧
    Compile.preview false (choice [.key "a"] (.text "A" .done) (.text "B" .done)) (.map (named answerSample)) {} ≠
      .ok (['A'], {}) := by
  obtain ⟨⟨compiled, hcompiled, htext⟩, -, -, hiff⟩ := preview_choice_iff chooses_answer false marked_answer
    (show 0 < depthLimit by decide) none {}
  refine ⟨⟨compiled, hcompiled, htext.trans (by decide)⟩, fun hsame => ?_⟩
  obtain ⟨-, htrue⟩ := (hiff (by decide)).mp hsame "yes" rfl
  rw [evaluate_answer] at htrue
  exact absurd (Except.ok.inj htrue) (by decide)

/-- **A text is read as a condition.** The block over the path shows the first branch for the text, and the
preview shows the other one. -/
theorem preview_answer_ne :
    (∃ compiled, Compile.template {} false (choice [.key "a"] (.text "A" .done) (.text "B" .done))
        (.map (named answerSample)) none {} = .ok (compiled, {}) ∧
      compiled.text = "\x7b\x7b#if a\x7d\x7dA\x7b\x7belse\x7d\x7dB\x7b\x7b/if\x7d\x7d".toList) ∧
    (Value.map (named answerSample)).lookup "a".toList = .ok (.str "yes") ∧
    (Value.str "yes").isTruthy = true ∧
    Compile.preview false (choice [.key "a"] (.text "A" .done) (.text "B" .done)) (.map (named answerSample)) {} =
      .ok (['B'], {}) := by
  obtain ⟨compiled, hcompiled, htext⟩ := exists_compiled_choice chooses_answer false marked_answer
    (show 0 < depthLimit by decide) none {}
  refine ⟨⟨compiled, hcompiled, htext.trans (by decide)⟩, rfl, rfl, ?_⟩
  have hdecided : decided (.str "yes") (.map (named answerSample)) = .ok false := evaluate_answer
  rw [preview_choice chooses_answer, hdecided]
  rfl

end Stencil.Compile
