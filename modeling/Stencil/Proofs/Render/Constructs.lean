import Stencil.Proofs.Component.Dissolved
import Stencil.Render.Tree

/-!
# Constructs on parts that render alike

Two trees may be rendered side by side, one of which has generators of its own to read, which nobody has read
before. Lists of their parts are alike if they render alike one by one (`PartsAlike`). Whatever is made of
parts is then rendered alike, too: conditionals, which are split at the same place
(`corresponds_renderIf`), loops, the bodies of which are a function in both or in none of them
(`corresponds_previewEach`, `corresponds_markersEach`), tags and references.

What has no generators of its own is rendered as always (`IsFramed`), objects that are marked as elements
among it (`framed_object`).
-/

namespace Stencil.Render

open Component

/-! ### Contexts -/

/-- Contexts without some generators. -/
abbrev Context.IsWithout (ids : List ℕ) (ctx : Context) : Prop := ctx.Every (Value.IsWithout ids)

section Contexts

variable {ids : List ℕ} {ctx : Context}

/-- Reading the data in scope draws from none of the generators. -/
theorem framed_scopedData (hctx : ctx.IsWithout ids) :
    Framed ids (Value.IsWithout ids) (liftM ctx.scopedData : Pass Value) :=
  .liftM fun _ h => hctx.scopedData (Value.hereditary_isWithout ids) h

/-- Resolving a given path draws from none of them. -/
theorem framed_resolveGiven {path data : Value} (hpath : path.IsWithout ids) (hdata : data.IsWithout ids) :
    Framed ids (Value.IsWithout ids) (resolveGiven path data) := by
  have hp := Value.hereditary_isWithout ids
  unfold resolveGiven
  split
  · exact .liftM fun _ h => hp.lookup hdata h
  · exact (Element.framed_iterate hpath).bind fun steps _ => .liftM fun _ h => hp.walk hdata h

/-- Finding the value to show draws from none of them. -/
theorem framed_shownValue (hctx : ctx.IsWithout ids) {name value : Value} (hname : name.IsWithout ids)
    (hvalue : value.IsWithout ids) : Framed ids (Value.IsWithout ids) (shownValue ctx name value) := by
  have hp := Value.hereditary_isWithout ids
  unfold shownValue
  split
  · next l hloop =>
    have hcurrent : Framed ids (Value.IsWithout ids) (liftM l.current : Pass Value) :=
      .liftM fun _ h => Context.Every.current hp (hctx.array l hloop) h
    have hrelative : Framed ids (fun _ => True) (liftM (l.relative name) : Pass Text) :=
      .liftM fun _ _ => trivial
    refine hcurrent.bind fun item hitem => hrelative.bind fun relative _ => ?_
    split
    · exact .pure hitem
    · exact .liftM fun _ h => hp.lookup hitem h
  · split
    · split
      · exact framed_resolveGiven hname hctx.data
      · exact .pure .absent
    · exact .pure hvalue

/-- A context stays without the generators in a loop over what is without them. -/
theorem isWithout_inLoop (hctx : ctx.IsWithout ids) (path : String) {array : Value}
    (harray : array.IsWithout ids) (index : Option Int) {itemVar : Value} (hitemVar : itemVar.IsWithout ids) :
    ({ ctx with loop := some ⟨path, array, index, itemVar⟩ } : Context).IsWithout ids := by
  refine ⟨hctx.data, ?_, ?_⟩
  · rintro l ⟨⟩
    exact harray
  · rintro l ⟨⟩
    exact hitemVar

/-- A given text is without generators if what it is given as is. -/
theorem isWithout_givenText {v : Value} (h : v.IsWithout ids) : (givenText v).IsWithout ids := by
  unfold givenText
  split
  · exact h
  · exact .str _

end Contexts

/-! ### Parts -/

/-- Parts that render alike, the first with generators of its own. As the body of a loop a part may be a
function, which has to be the same. -/
structure Part.Alike (ids own : List ℕ) (p q : Part) : Prop where
  helper : p.node.helper? = q.node.helper?
  isClosure : p.node.isClosure = q.node.isClosure
  function : p.node.isClosure = true → p.node = q.node ∧ p.node.IsWithout ids
  render : ∀ ctx : Context, ctx.IsWithout ids → Corresponds ids own (· = ·) (p.render ctx) (q.render ctx)

/-- Lists of parts that render alike one by one, the first with generators of their own at the most. -/
inductive PartsAlike (ids : List ℕ) : List ℕ → List Part → List Part → Prop
  | nil (own : List ℕ) : PartsAlike ids own [] []
  | cons {own own' : List ℕ} {p q : Part} {ps qs : List Part} (first : p.Alike ids own q)
      (rest : PartsAlike ids own' ps qs) : PartsAlike ids (own ++ own') (p :: ps) (q :: qs)

section Parts

variable {ids own own' : List ℕ} {ps qs ps' qs' : List Part} {ctx : Context}

/-- Parts that are alike with some generators drawn are alike with more of them. -/
theorem Part.Alike.mono {p q : Part} (h : p.Alike ids own q) (hown : own ⊆ own') : p.Alike ids own' q :=
  ⟨h.helper, h.isClosure, h.function, fun ctx hctx => (h.render ctx hctx).mono (fun _ _ heq => heq) hown⟩

/-- One part is alike another if the parts are. -/
theorem PartsAlike.single {p q : Part} (h : p.Alike ids own q) : PartsAlike ids own [p] [q] := by
  have hcons := PartsAlike.cons h (.nil [])
  rwa [List.append_nil] at hcons

/-- More generators may be drawn than the parts need. -/
theorem PartsAlike.weaken (h : PartsAlike ids own ps qs) (more : List ℕ) :
    PartsAlike ids (more ++ own) ps qs := by
  cases h with
  | nil => exact .nil _
  | cons first rest =>
    rw [← List.append_assoc]
    exact .cons (first.mono (List.subset_append_right _ _)) rest

/-- Lists of parts that are alike one by one are alike side by side. -/
theorem PartsAlike.append (h : PartsAlike ids own ps qs) (h' : PartsAlike ids own' ps' qs') :
    PartsAlike ids (own ++ own') (ps ++ ps') (qs ++ qs') := by
  induction h with
  | nil own => exact h'.weaken own
  | cons first _ ih =>
    rw [List.append_assoc]
    exact .cons first ih

/-- **Splitting.** The first alternative region is at the same place. -/
theorem PartsAlike.split (h : PartsAlike ids own ps qs) :
    ∃ before region after, own = before ++ (region ++ after) ∧
      PartsAlike ids before (splitParts ps).1 (splitParts qs).1 ∧
      PartsAlike ids region (splitParts ps).2.1.toList (splitParts qs).2.1.toList ∧
      PartsAlike ids after (splitParts ps).2.2 (splitParts qs).2.2 := by
  induction h with
  | nil own => exact ⟨own, [], [], (List.append_nil own).symm, .nil _, .nil _, .nil _⟩
  | @cons own own' p q ps qs first rest ih =>
    rw [splitParts, splitParts, first.helper]
    split
    · exact ⟨[], own, own', rfl, .nil _, .single first, rest⟩
    · obtain ⟨before, region, after, rfl, hbefore, hregion, hafter⟩ := ih
      exact ⟨own ++ before, region, after, (List.append_assoc _ _ _).symm, .cons first hbefore, hregion,
        hafter⟩

/-- What parts render to, one after the other. -/
theorem PartsAlike.renderParts (h : PartsAlike ids own ps qs) (hctx : ctx.IsWithout ids) (hnodup : own.Nodup)
    (hown : own ⊆ ids) : Corresponds ids own (· = ·) (renderParts ctx ps) (renderParts ctx qs) := by
  induction h with
  | nil => exact .pure rfl
  | cons first _ ih =>
    obtain ⟨hfirst, hrest⟩ := List.append_subset.mp hown
    obtain ⟨-, hnodup', hdisjoint⟩ := List.nodup_append'.mp hnodup
    exact (first.render ctx hctx).append (ih hnodup' hrest) hdisjoint hrest fun _ _ _ _ => congrArg₂ _

/-- An optional region is a list of at most one part. -/
theorem renderRegion_eq (ctx : Context) (region : Option Part) :
    renderRegion ctx region = Render.renderParts ctx region.toList := by
  cases region with
  | none => rfl
  | some part => simp [renderRegion, Render.renderParts]

/-! ### Conditionals -/

/-- One branch of a conditional. -/
theorem corresponds_renderBranch (h : PartsAlike ids own ps qs) (hctx : ctx.IsWithout ids)
    (hnodup : own.Nodup) (hown : own ⊆ ids) (holds : Bool) :
    Corresponds ids own (· = ·) (renderBranch ctx holds ps) (renderBranch ctx holds qs) := by
  obtain ⟨before, region, after, rfl, hbefore, hregion, hafter⟩ := h.split
  obtain ⟨hbefore', hrest'⟩ := List.append_subset.mp hown
  obtain ⟨hregion', hafter'⟩ := List.append_subset.mp hrest'
  obtain ⟨hnodup₁, hnodup₂, hdisjoint⟩ := List.nodup_append'.mp hnodup
  change Corresponds ids _ _
    (if holds then renderParts ctx ((splitParts ps).1 ++ (splitParts ps).2.2)
      else renderRegion ctx (splitParts ps).2.1)
    (if holds then renderParts ctx ((splitParts qs).1 ++ (splitParts qs).2.2)
      else renderRegion ctx (splitParts qs).2.1)
  split
  · have hsublist : (before ++ after).Sublist (before ++ (region ++ after)) :=
      (List.Sublist.refl before).append (List.sublist_append_right region after)
    exact ((hbefore.append hafter).renderParts hctx (hnodup.sublist hsublist)
      fun _ h => hown (hsublist.subset h)).mono (fun _ _ heq => heq) hsublist.subset
  · rw [renderRegion_eq, renderRegion_eq]
    refine (hregion.renderParts hctx hnodup₂.of_append_left hregion').mono (fun _ _ heq => heq) ?_
    exact fun _ h => List.mem_append_right _ (List.mem_append_left _ h)

/-- An optional alternative region as a pseudo-tag. -/
def elseTag (ctx : Context) : Option Part → Pass Text
  | some region => do
    let text ← region.render ctx
    pure ("<hb-else>".toList ++ text ++ "</hb-else>".toList)
  | none => pure []

private theorem renderIfTag_eq (ctx : Context) (condition : Text) (parts : List Part) :
    renderIfTag ctx condition parts = (do
      let first ← renderParts ctx (splitParts parts).1
      let middle ← elseTag ctx (splitParts parts).2.1
      let last ← renderParts ctx (splitParts parts).2.2
      pure ("<hb-if condition=\"".toList ++ Markup.escape condition ++ "\">".toList ++ first ++ middle ++
        last ++ "</hb-if>".toList)) := by
  unfold renderIfTag
  generalize splitParts parts = split
  obtain ⟨before, region, after⟩ := split
  cases region with
  | none => rfl
  | some region => simp only [elseTag, bind_assoc, pure_bind]

private theorem corresponds_elseTag {region region' : Option Part}
    (h : PartsAlike ids own region.toList region'.toList) (hctx : ctx.IsWithout ids) :
    Corresponds ids own (· = ·) (elseTag ctx region) (elseTag ctx region') := by
  cases region with
  | none =>
    cases region' with
    | none => exact .pure rfl
    | some q => cases h
  | some p =>
    cases region' with
    | none => cases h
    | some q =>
      cases h with
      | cons first _ =>
        refine Corresponds.mono ((first.render ctx hctx).map fun t t' ht => ?_) (fun _ _ heq => heq)
          (List.subset_append_left _ _)
        rw [ht]

/-- A conditional as a pseudo-tag. -/
theorem corresponds_renderIfTag (h : PartsAlike ids own ps qs) (hctx : ctx.IsWithout ids)
    (hnodup : own.Nodup) (hown : own ⊆ ids) (condition : Text) :
    Corresponds ids own (· = ·) (renderIfTag ctx condition ps) (renderIfTag ctx condition qs) := by
  obtain ⟨before, region, after, rfl, hbefore, hregion, hafter⟩ := h.split
  obtain ⟨hbefore', hrest'⟩ := List.append_subset.mp hown
  obtain ⟨hregion', hafter'⟩ := List.append_subset.mp hrest'
  obtain ⟨hnodup₁, hnodup₂, hdisjoint⟩ := List.nodup_append'.mp hnodup
  obtain ⟨hnodup₃, hnodup₄, hdisjoint'⟩ := List.nodup_append'.mp hnodup₂
  rw [renderIfTag_eq, renderIfTag_eq]
  refine (hbefore.renderParts hctx hnodup₁ hbefore').bind ?_ hdisjoint hrest'
  rintro first _ rfl
  refine (corresponds_elseTag hregion hctx).bind ?_ hdisjoint' hafter'
  rintro middle _ rfl
  refine (hafter.renderParts hctx hnodup₄ hafter').map ?_
  rintro last _ rfl
  rfl

/-- **Conditionals.** Alike parts are split alike, and the branch that is shown renders alike. -/
theorem corresponds_renderIf {s : Setting} (h : PartsAlike ids own ps qs) (hctx : ctx.IsWithout ids)
    (hnodup : own.Nodup) (hown : own ⊆ ids) (condition : Value) :
    Corresponds ids own (· = ·) (renderIf s ctx condition ps) (renderIf s ctx condition qs) := by
  unfold renderIf
  split
  · exact corresponds_renderBranch h hctx hnodup hown _
  · split
    · refine Corresponds.after (framed_scopedData hctx) (fun data _ => ?_) hown
      have hdecided : Framed ids (fun _ => True) (liftM (Condition.evaluate condition data) : Pass Bool) :=
        .liftM fun _ _ => trivial
      exact Corresponds.after hdecided (fun holds _ => corresponds_renderBranch h hctx hnodup hown holds) hown
    · exact corresponds_renderIfTag h hctx hnodup hown _

end Parts

/-! ### Loops -/

section Loops

variable {ids own own' : List ℕ} {s : Setting} {onward : Context → Value → Pass Text} {ctx : Context}

/-- **Bodies of loops.** A single part is a function in both or in none of them. -/
theorem corresponds_renderBody {x y : Pass (List Part)}
    (honward : ∀ ctx v, ctx.IsWithout ids → v.IsWithout ids → Framed ids (fun _ => True) (onward ctx v))
    (h : Corresponds ids own (PartsAlike ids own') x y) (hnodup : (own ++ own').Nodup) (hown : own' ⊆ ids)
    (hctx : ctx.IsWithout ids) {item : Value} (hitem : item.IsWithout ids) (index : ℕ) :
    Corresponds ids (own ++ own') (· = ·) (renderBody s onward x ctx item index)
      (renderBody s onward y ctx item index) := by
  obtain ⟨-, hnodup', hdisjoint⟩ := List.nodup_append'.mp hnodup
  unfold renderBody
  refine h.bind (fun ps qs halike => ?_) hdisjoint hown
  have hparts := halike.renderParts hctx hnodup' hown
  cases halike with
  | nil => exact hparts
  | cons first hrest =>
    cases hrest with
    | cons => exact hparts
    | nil =>
      dsimp only
      rw [← first.isClosure]
      split
      · next hclosure =>
        obtain ⟨heq, hfunction⟩ := first.function hclosure
        rw [← heq]
        refine Corresponds.after (framed_callItem hfunction hitem index) (fun v hv => ?_) hown
        exact (honward ctx v hctx hv).corresponds
      · exact hparts

/-- A body for each item of an array. -/
theorem corresponds_renderItems {body body' : Context → Value → ℕ → Pass Text}
    (h : ∀ ctx item index, ctx.IsWithout ids → item.IsWithout ids →
      Corresponds ids [] (· = ·) (body ctx item index) (body' ctx item index))
    {scope : ℕ → Context} (hscope : ∀ index, (scope index).IsWithout ids) (position : ℕ)
    {items : List Value} (hitems : ∀ v ∈ items, v.IsWithout ids) :
    Corresponds ids [] (· = ·) (renderItems body scope position items)
      (renderItems body' scope position items) := by
  induction items generalizing position with
  | nil => exact .pure rfl
  | cons item rest ih =>
    obtain ⟨hitem, hrest⟩ := List.forall_mem_cons.mp hitems
    exact (h (scope position) item position (hscope position) hitem).append (ih (position + 1) hrest)
      (List.disjoint_nil_left _) (List.nil_subset _) fun _ _ _ _ => congrArg₂ _

/-- Two loops in a preview correspond if their bodies do, and draw nothing. -/
theorem corresponds_previewEach {body body' : Context → Value → ℕ → Pass Text}
    (h : ∀ ctx item index, ctx.IsWithout ids → item.IsWithout ids →
      Corresponds ids [] (· = ·) (body ctx item index) (body' ctx item index))
    (hctx : ctx.IsWithout ids) {array itemVar : Value} (harray : array.IsWithout ids)
    (hitemVar : itemVar.IsWithout ids) :
    Corresponds ids [] (· = ·) (previewEach body ctx array itemVar)
      (previewEach body' ctx array itemVar) := by
  unfold previewEach
  refine Corresponds.after (framed_scopedData hctx) (fun data hdata => ?_) (List.nil_subset _)
  have hdecided : Framed ids (fun _ => True) (liftM (Condition.evaluate array data) : Pass Bool) :=
    .liftM fun _ _ => trivial
  refine Corresponds.after hdecided (fun holds _ => ?_) (List.nil_subset _)
  split
  · refine Corresponds.after (framed_resolveGiven harray hdata) (fun found hfound => ?_) (List.nil_subset _)
    split
    · next items hitems =>
      exact corresponds_renderItems h
        (fun index => isWithout_inLoop hctx array.displayString hfound (some index) hitemVar) 0
        ((Value.hereditary_isWithout ids).items hfound hitems)
    · exact .pure rfl
  · exact .pure rfl

/-- The item that stands for all is without the generators if the array is. -/
theorem isWithout_representative {found : Value} (h : found.IsWithout ids) :
    (representative found).IsWithout ids := by
  unfold representative
  split
  · next item rest hitems =>
    exact (Value.hereditary_isWithout ids).items h hitems item (List.mem_cons_self ..)
  · exact (Value.hereditary_isWithout ids).map (List.forall_mem_nil _)

/-- Two loops in a template correspond if their bodies do. -/
theorem corresponds_markersEach {body body' : Context → Value → ℕ → Pass Text}
    (h : ∀ ctx item index, ctx.IsWithout ids → item.IsWithout ids →
      Corresponds ids own (· = ·) (body ctx item index) (body' ctx item index))
    (hctx : ctx.IsWithout ids) {array itemVar : Value} (harray : array.IsWithout ids)
    (hitemVar : itemVar.IsWithout ids) (hown : own ⊆ ids) :
    Corresponds ids own (· = ·) (markersEach body ctx array itemVar)
      (markersEach body' ctx array itemVar) := by
  unfold markersEach
  refine Corresponds.after (framed_scopedData hctx) (fun data hdata => ?_) hown
  refine Corresponds.after (framed_resolveGiven harray hdata) (fun found hfound => ?_) hown
  have hpath : Framed ids (fun _ => True) (liftM (absolutePath array ctx.loop) : Pass Value) :=
    .liftM fun _ _ => trivial
  refine Corresponds.after hpath (fun path _ => ?_) hown
  have hitem := isWithout_representative hfound
  have hscope := isWithout_inLoop hctx path.displayString (.list _ (List.forall_mem_singleton.mpr hitem))
    (some 0) hitemVar
  refine (h _ _ 0 hscope hitem).map ?_
  rintro t _ rfl
  rfl

end Loops

/-! ### Tags and references -/

/-- Trees that a tree goes on in render as what they come to. -/
def GoesOn (ids : List ℕ) (mode : Mode) (onward : Context → Value → Pass Text) : Prop :=
  ∀ (ctx : Context) (v : Value), ctx.IsWithout ids → (v.dissolved ids).Fits ids mode →
    Corresponds ids (v.dissolved ids).own (· = ·) (onward ctx v) (onward ctx (.tuple (v.dissolved ids).nodes))

section Nodes

variable {ids own : List ℕ} {mode : Mode} {onward : Context → Value → Pass Text} {ctx : Context}

/-- Where there is nothing to dissolve, it goes on in work that is framed. -/
theorem GoesOn.framed (h : GoesOn ids mode onward) (hctx : ctx.IsWithout ids) {v : Value}
    (hv : v.IsWithout ids) : Framed ids (fun _ => True) (onward ctx v) := by
  have hbare := hv.isBare
  have hsame := h ctx v hctx hbare.fits
  rw [hbare.own] at hsame
  exact hsame.framed

/-- Two elements correspond if what is inside them does. -/
theorem corresponds_renderTag {x y : Pass Text} (h : Corresponds ids own (· = ·) x y) (hown : own ⊆ ids)
    (tag : String) (props : Mapping) :
    Corresponds ids own (· = ·) (renderTag tag props x) (renderTag tag props y) := by
  unfold renderTag
  have hopening : Framed ids (fun _ => True) (liftM (Markup.startTag tag props) : Pass Text) :=
    .liftM fun _ _ => trivial
  refine Corresponds.after hopening (fun opening _ => ?_) hown
  split
  · exact .pure rfl
  · cases Markup.innerMarkup? props with
    | some inner => exact .pure rfl
    | none =>
      refine h.map ?_
      rintro t _ rfl
      rfl

/-- A reference in a preview shows what is in the place of its value. -/
theorem corresponds_previewVal (honward : GoesOn ids mode onward) (hctx : ctx.IsWithout ids)
    {name : Value} (hname : name.IsWithout ids) {value : Value} (hfits : (value.dissolved ids).Fits ids mode) :
    Corresponds ids (value.dissolved ids).own (· = ·) (previewVal onward ctx name value)
      (previewVal onward ctx name ((value.dissolved ids).inPlaceOf value)) := by
  set d := value.dissolved ids with hd
  -- a value that is without the generators, or not looked at
  have hframed : ∀ v : Value, v.IsWithout ids →
      Framed ids (fun _ => True) (previewVal onward ctx name v) := by
    intro v hv
    refine (framed_shownValue hctx hname hv).bind fun shown hshown => ?_
    split
    · exact .pure trivial
    · exact honward.framed hctx hshown
  by_cases hnothing : value.isNothing = true
  · have hvalue : value.IsWithout ids := by
      cases value with
      | null => exact .null
      | absent => exact .absent
      | _ => cases hnothing
    rw [Dissolved.inPlaceOf, if_pos hnothing]
    exact (hframed value hvalue).corresponds
  · rw [Dissolved.inPlaceOf, if_neg hnothing]
    cases hloop : ctx.loop with
    | some l =>
      have hignored : ∀ v, previewVal onward ctx name v = previewVal onward ctx name .null := by
        intro v
        simp only [previewVal, shownValue, hloop]
      rw [hignored value, hignored (.tuple d.nodes)]
      exact (hframed .null .null).corresponds
    | none =>
      have hgiven : ∀ v : Value, v.isNothing = false → previewVal onward ctx name v = onward ctx v := by
        intro v hv
        have hnull : v.isNull = false := by
          cases v with
          | null => cases hv
          | _ => rfl
        simp [previewVal, shownValue, hloop, hnull, hv]
      rw [hgiven value (by simpa using hnothing), hgiven (.tuple d.nodes) rfl]
      exact honward ctx value hctx hfits

/-- Two values in a template correspond if what they show otherwise does. -/
theorem corresponds_markersVal {x y : Pass Text} (h : Corresponds ids own (· = ·) x y) {value value' : Value}
    (hnull : value.isNull = value'.isNull) (name : Value) :
    Corresponds ids own (· = ·) (markersVal ctx name value x) (markersVal ctx name value' y) := by
  unfold markersVal
  split
  · next l _ =>
    have hrelative : Framed ids (fun _ => True) (liftM (l.relative name) : Pass Text) :=
      .liftM fun _ _ => trivial
    exact (hrelative.bind (q := fun _ => True) fun relative _ => .pure trivial).corresponds
  · rw [← hnull]
    split
    · have hreference : Framed ids (fun _ => True)
          (liftM (nameReference ctx.markers (givenText name)) : Pass Text) := .liftM fun _ _ => trivial
      exact hreference.corresponds
    · exact h

/-- A tree that is dissolved is null if it was. -/
theorem isNull_inPlaceOf (d : Dissolved) (v : Value) : (d.inPlaceOf v).isNull = v.isNull := by
  cases v <;> rfl

end Nodes

/-! ### Other trees -/

section Framed

variable {ids : List ℕ} {s : Setting} {onward : Context → Value → Pass Text} {ctx : Context}

/-- Nodes without the generators render in work that is framed. -/
def IsFramed (ids : List ℕ) (s : Setting) (onward : Context → Value → Pass Text) (v : Value) : Prop :=
  v.IsWithout ids → ∀ ctx : Context, ctx.IsWithout ids →
    Framed ids (fun _ => True) (renderNode s onward v ctx)

/-- Two texts one behind the other draw from none of the generators if neither does. -/
theorem Framed.appendText {x y : Pass Text} (hx : Framed ids (fun _ => True) x)
    (hy : Framed ids (fun _ => True) y) :
    Framed ids (fun _ => True) (do let t ← x; pure (t ++ (← y))) :=
  hx.bind fun _ _ => hy.bind fun _ _ => .pure trivial

variable {items : List Value}

/-- Rendering nodes without the generators draws from none of them. -/
private theorem framed_renderAll (h : ∀ v ∈ items, IsFramed ids s onward v)
    (hitems : ∀ v ∈ items, v.IsWithout ids) (hctx : ctx.IsWithout ids) :
    Framed ids (fun _ => True) (renderAll s onward items ctx) := by
  induction items with
  | nil =>
    rw [renderAll]
    exact .pure trivial
  | cons v rest ih =>
    obtain ⟨hv, hrest⟩ := List.forall_mem_cons.mp h
    obtain ⟨hv', hrest'⟩ := List.forall_mem_cons.mp hitems
    rw [renderAll]
    exact Framed.appendText (hv hv' ctx hctx) (ih hrest hrest')

/-- Nor does rendering the items that another generator has left. -/
private theorem framed_renderFrom (h : ∀ v ∈ items, IsFramed ids s onward v)
    (hitems : ∀ v ∈ items, v.IsWithout ids) (hctx : ctx.IsWithout ids) {id : ℕ} (hid : id ∉ ids)
    (position : ℕ) : Framed ids (fun _ => True) (renderFrom s onward id position items ctx) := by
  induction items generalizing position with
  | nil =>
    rw [renderFrom]
    exact .pure trivial
  | cons v rest ih =>
    obtain ⟨hv, hrest⟩ := List.forall_mem_cons.mp h
    obtain ⟨hv', hrest'⟩ := List.forall_mem_cons.mp hitems
    rw [renderFrom]
    have hmore := ih hrest hrest' (position + 1)
    refine (framed_drawItem hid position).bind fun isLeft _ => ?_
    cases isLeft with
    | true => exact Framed.appendText (hv hv' ctx hctx) hmore
    | false => exact Framed.appendText (.pure trivial) hmore

private theorem framed_renderKeys {entries : List (Value × Value)}
    (h : ∀ entry ∈ entries, IsFramed ids s onward entry.1)
    (hkeys : ∀ entry ∈ entries, entry.1.IsWithout ids) (hctx : ctx.IsWithout ids) :
    Framed ids (fun _ => True) (renderKeys s onward entries ctx) := by
  induction entries with
  | nil =>
    rw [renderKeys]
    exact .pure trivial
  | cons entry rest ih =>
    obtain ⟨hv, hrest⟩ := List.forall_mem_cons.mp h
    obtain ⟨hv', hrest'⟩ := List.forall_mem_cons.mp hkeys
    rw [renderKeys]
    exact Framed.appendText (hv hv' ctx hctx) (ih hrest hrest')

private theorem framed_renderInside {v : Value} (h : ∀ w, sizeOf w < sizeOf v → IsFramed ids s onward w)
    (hv : v.IsWithout ids) (hctx : ctx.IsWithout ids) :
    Framed ids (fun _ => True) (renderInside s onward v ctx) := by
  have hinside : ∀ {items : List Value}, sizeOf items < sizeOf v →
      ∀ w ∈ items, IsFramed ids s onward w :=
    fun hitems w hw => h w (Nat.lt_trans (List.sizeOf_lt_of_mem hw) hitems)
  have hp := Value.hereditary_isWithout ids
  unfold renderInside
  split
  · exact framed_renderAll (hinside (by simp)) (hp.of_list hv) hctx
  · exact framed_renderAll (hinside (by simp)) (hp.of_tuple hv) hctx
  · exact framed_renderAll (hinside (by simp)) (hp.of_set hv) hctx
  · next id items =>
    cases hv with
    | generator _ _ other each =>
      have hsize : sizeOf items < sizeOf (Value.generator id items) := by
        simp only [Value.generator.sizeOf_spec]
        omega
      exact framed_renderFrom (hinside hsize) each hctx other 0
  · next entries =>
    refine framed_renderKeys (fun entry hentry => h entry.1 ?_)
      (fun entry hentry => (hp.of_map hv entry hentry).1) hctx
    have := List.sizeOf_lt_of_mem hentry
    have : sizeOf entry.1 < sizeOf entry := by
      obtain ⟨key, value⟩ := entry
      simp
      omega
    simp
    omega
  · exact .pure trivial
  · exact .pure trivial
  · exact .pure trivial
  · exact .throw _

private theorem framed_renderAttribute {attributes : List (String × Value)}
    (h : ∀ w, sizeOf w < sizeOf attributes → IsFramed ids s onward w)
    (hattributes : ∀ entry ∈ attributes, entry.2.IsWithout ids) (hctx : ctx.IsWithout ids) (name : String) :
    Framed ids (fun _ => True) (renderAttribute s onward name attributes ctx) := by
  induction attributes with
  | nil =>
    rw [renderAttribute]
    exact .throw _
  | cons entry rest ih =>
    obtain ⟨own, v⟩ := entry
    obtain ⟨hv, hrest⟩ := List.forall_mem_cons.mp hattributes
    have hsize : sizeOf ((own, v) :: rest) = 1 + (1 + sizeOf own + sizeOf v) + sizeOf rest := rfl
    rw [renderAttribute]
    split
    · exact framed_renderInside (fun w hw => h w (by omega)) hv hctx
    · exact ih (fun w hw => h w (by omega)) hrest

/-- Reading an attribute draws from none of the generators. -/
theorem framed_attributeOf {attributes : List (String × Value)}
    (h : ∀ entry ∈ attributes, entry.2.IsWithout ids) (name : String) :
    Framed ids (Value.IsWithout ids) (liftM (attributeOf attributes name) : Pass Value) := by
  refine .liftM fun v hv => ?_
  unfold attributeOf at hv
  split at hv
  · next w hw =>
    obtain rfl := Except.ok.inj hv
    obtain ⟨before, after, rfl, -⟩ := List.lookup_eq_some_iff.mp hw
    exact h (name, w) (by simp)
  · cases hv

private theorem framed_argumentsOf {attributes : List (String × Value)}
    (h : ∀ entry ∈ attributes, entry.2.IsWithout ids) :
    Framed ids (Mapping.IsWithout ids) (argumentsOf attributes) := by
  unfold argumentsOf
  refine (framed_attributeOf h "props").bind fun props hprops => ?_
  refine (Element.framed_properties hprops).bind fun m hm => ?_
  refine (framed_attributeOf h "children").bind fun children hchildren => ?_
  split
  · exact (Element.framed_iterate hchildren).bind fun items hitems =>
      .pure (isWithout_withChildren hm hitems)
  · exact .pure hm

/-- An object that is marked as an element, or is shown as it is. -/
theorem framed_object (honward : GoesOn ids s.mode onward) {attributes : List (String × Value)}
    (h : ∀ w, sizeOf w < sizeOf attributes → IsFramed ids s onward w)
    (hattributes : ∀ entry ∈ attributes, entry.2.IsWithout ids) (hctx : ctx.IsWithout ids) :
    Framed ids (fun _ => True) (renderNode s onward (.object attributes) ctx) := by
  have hinside := framed_renderAttribute h hattributes hctx "children"
  rw [renderNode]
  split
  · refine (framed_attributeOf hattributes "type").bind fun type htype => ?_
    have htag : ∀ tag : String, Framed ids (fun _ => True) (do
        renderTag tag (← propertiesOf attributes) (renderAttribute s onward "children" attributes ctx)) := by
      intro tag
      have hprops : Framed ids (fun _ => True) (liftM (propertiesOf attributes) : Pass Mapping) :=
        .liftM fun _ _ => trivial
      refine hprops.bind fun props _ => ?_
      exact (corresponds_renderTag hinside.corresponds (List.nil_subset ids) tag props).framed
    split
    · exact hinside
    · exact htag _
    · exact htag _
    · refine (framed_argumentsOf hattributes).bind fun props hprops => ?_
      exact (framed_call htype hprops).bind fun v hv => honward.framed hctx hv
    · exact .throw _
  · exact .pure trivial

end Framed

end Stencil.Render
