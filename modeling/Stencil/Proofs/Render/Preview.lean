import Stencil.Proofs.Component.Strays
import Stencil.Proofs.Render.Markers
import Stencil.Proofs.Value.Data

/-!
# Previews and templates

A preview of a tree decides and repeats what its template leaves to whoever fills it in. The main
statement is `preview_eq_shown`: **a preview of data is what the template shows for the data**, where the
paths of the tree are paths of names and begin, inside a loop, with a word for the item of this loop.
-/

namespace Stencil.Render

open Text Template Component

/-! ### Paths in a preview -/

/-- Lookups that stay in the item of the innermost loop, and references without a value. -/
def IsLocal (l : List (Option Text) × Lookup) : Prop :=
  l.2 ≠ .given ∧ ∀ p ∈ l.2.paths, IsLocalPath l.1 p

instance : DecidablePred IsLocal := fun l =>
  inferInstanceAs (Decidable (l.2 ≠ .given ∧ ∀ p ∈ l.2.paths, IsLocalPath l.1 p))

/-- **Paths.** Where a path leads in a preview inside loops, given by the names and values of their items,
innermost first: into the item of the innermost loop if it begins with a word for this item, and from the
data on if it does not. -/
def scopedAt (data : Value) (items : List (Option Text × Value)) (path : Text) : Value :=
  match items with
  | [] => data.resolve path
  | (name, item) :: _ =>
    if IsOwnWord name (firstName path).1 then item.resolve (firstName path).2 else data.resolve path

/-- Paths that stay in the item of the innermost loop lead where they lead in a template. -/
theorem scopedAt_eq_valueAt {items : List (Option Text × Value)} {path : Text}
    (h : IsLocalPath (items.map Prod.fst) path) (data : Value) :
    scopedAt data items path = valueAt data items path := by
  cases items with
  | nil => rfl
  | cons own outer =>
    have hown : IsOwnWord own.1 (firstName path).1 := h _ rfl
    rw [scopedAt, if_pos hown, valueAt_own hown]

/-- **Scopes.** The data of a context inside a loop leads where paths lead in a preview. -/
theorem exists_scopedData {entries : Mapping} {l : LoopScope} {item : Value} {itemVar : Option String}
    (current : l.current = .ok item) (hitem : item ≠ .absent) (hvar : l.itemVar = nameValue itemVar)
    (hname : ∀ v ∈ itemVar, IsIdentifier v.toList) (outer : List (Option Text × Value)) :
    ∃ visible, ({ data := .map entries, loop := some l } : Context).scopedData = .ok (.map visible) ∧
      ∀ p, IsNamePath p → (Value.map visible).resolve p =
        scopedAt (.map entries) ((itemVar.map String.toList, item) :: outer) p := by
  refine ⟨_, scopedData_of_current current hitem hvar none, fun p hp => ?_⟩
  have hne : itemVar ≠ some "" := fun he => (hname "" he).ne_nil rfl
  have hfound : ∀ a, IsIdentifier a →
      (Mapping.at? (String.ofList a) (withItem entries (nameValue itemVar) item)).getD .absent =
        if IsOwnWord (itemVar.map String.toList) a then item
        else (Mapping.at? (String.ofList a) entries).getD .absent := by
    intro a ha
    split_ifs with hown
    · rw [at?_withItem entries item (isItemWord_iff.mpr hown) hne, Option.getD_some]
    · rw [at?_withItem_of_ne entries item (mt isItemWord_iff.mp hown)]
  rcases IsNamePath.firstName_cases hp with ⟨ha, hfirst⟩ | ⟨a, t, rfl, ha, ht, hfirst⟩
  · rw [resolve_name ha, hfound p ha, scopedAt, hfirst, resolve_name ha]
    rfl
  · rw [resolve_field ha, hfound a ha, scopedAt, hfirst, resolve_field ha]
    split_ifs <;> rfl

/-- A context of a preview, the loop around, and the names and values of the items of all loops around,
innermost first. -/
inductive Within (entries : Mapping) :
    Context → Option Enclosing → List (Option Text × Value) → Prop
  | root : Within entries { data := .map entries } none []
  | item (l : LoopScope) (e : Enclosing) (item : Value) (outer : List (Option Text × Value))
      (current : l.current = .ok item) (itemVar : l.itemVar = nameValue e.itemVar)
      (isData : item.IsData) (isSpelled : e.IsSpelled) :
      Within entries { data := .map entries, loop := some l } (some e) ((e.name, item) :: outer)

namespace Within

variable {entries : Mapping} {ctx : Context} {loop : Option Enclosing}
  {items : List (Option Text × Value)}

theorem encloses (h : Within entries ctx loop items) : Encloses loop (items.map Prod.fst) := by
  cases h with
  | root => exact .root
  | item l e item outer _ _ _ isSpelled => exact .within e _ isSpelled

theorem exists_scopedData (h : Within entries ctx loop items) :
    ∃ visible, ctx.scopedData = .ok (.map visible) ∧
      ∀ p, IsNamePath p → (Value.map visible).resolve p = scopedAt (.map entries) items p := by
  cases h with
  | root => exact ⟨entries, rfl, fun p _ => rfl⟩
  | item l e item outer current itemVar isData isSpelled =>
    exact Render.exists_scopedData current isData.ne_absent itemVar isSpelled.isIdentifier outer

/-- The path of an array leads where it leads in the template. -/
theorem scopedAt_inTemplate (h : Within entries ctx loop items) {p : Text} (hp : IsNamePath p) :
    scopedAt (.map entries) items (inTemplate loop p) = scopedAt (.map entries) items p := by
  cases h with
  | root => rfl
  | item l e item outer _ _ _ isSpelled =>
    by_cases hown : IsOwnWord e.name (firstName p).1
    · rw [scopedAt, scopedAt, firstName_inTemplate isSpelled hp hown, if_pos e.isOwnWord_item,
        if_pos hown]
    · rw [inTemplate_foreign isSpelled hp hown]

/-- Paths lead to data or nowhere. -/
theorem isAnswer_scopedAt (h : Within entries ctx loop items) (hdata : (Value.map entries).IsData)
    (p : Text) : (scopedAt (.map entries) items p).IsAnswer := by
  cases h with
  | root => exact Value.isAnswer_follow hdata _
  | item l e item outer _ _ isData _ =>
    rw [scopedAt]
    split_ifs
    · exact Value.isAnswer_follow isData _
    · exact Value.isAnswer_follow hdata _

end Within

/-! ### Parts of a preview -/

section Parts

variable {isBuilding : Bool} {onward : Context → Value → Pass Text} {print : Value → Pass Text}
  {entries : Mapping} {ctx : Context} {loop : Option Enclosing} {items : List (Option Text × Value)}

/-- Work that gives what the body of a draft shows inside loops. -/
def ShowsBody (print : Value → Pass Text) (entries : Mapping) (loop : Option Enclosing)
    (items : List (Option Text × Value)) (x : Pass Text) (d : Draft) : Prop :=
  x = (d.body loop).shown print (scopedAt (.map entries)) items

theorem showsBody_done : ShowsBody print entries loop items (pure []) .done := by
  rw [ShowsBody, body_done]
  rfl

theorem ShowsBody.append {x y : Pass Text} {d e : Draft} (hx : ShowsBody print entries loop items x d)
    (hy : ShowsBody print entries loop items y e) :
    ShowsBody print entries loop items (do let t ← x; let u ← y; pure (t ++ u)) (d.append e) := by
  rw [ShowsBody, body_append, Content.shown_append, ← hx, ← hy]
  rfl

/-- **Conditionals.** A preview shows the branch that the blocks of the conjuncts show. -/
theorem showsBody_renderIf (h : Within entries ctx loop items) {condition : String}
    (hcondition : IsConjunction condition.toList) {ps : List Part} {r : Regions}
    (hps : Fits (ShowsBody print entries loop items) ctx ps r) :
    ShowsBody print entries loop items (renderIf ⟨.preview, isBuilding⟩ ctx (.str condition) ps)
      (r.underCondition condition.toList) := by
  obtain ⟨visible, hvisible, hresolve⟩ := h.exists_scopedData
  obtain ⟨c, hvalid, hunwrapped, hpaths⟩ := hcondition.exists_conjuncts
  have hevaluate := Condition.evaluate_eq hvalid hcondition.1 hpaths
    (show (Value.map visible).isNothing = false from rfl)
  rw [String.ofList_toList] at hevaluate
  -- the values that evaluation finds are those that the template finds
  have hsame : (Condition.splitConjuncts c).all (fun conjunct =>
        ((Value.map visible).resolve (conjunctPath conjunct).2).isTruthy != (conjunctPath conjunct).1) =
      (Condition.splitConjuncts c).all fun x =>
        shows (scopedAt (.map entries)) items (conjunctPath x).1 (conjunctPath x).2 := by
    refine Bool.eq_iff_iff.mpr ?_
    rw [List.all_eq_true, List.all_eq_true]
    refine forall₂_congr fun x hx => ?_
    rw [shows, hresolve _ (hpaths x hx)]
  rw [hsame] at hevaluate
  have hbranch : renderIf ⟨.preview, isBuilding⟩ ctx (.str condition) ps =
      renderBranch ctx ((Condition.splitConjuncts c).all fun x =>
        shows (scopedAt (.map entries)) items (conjunctPath x).1 (conjunctPath x).2) ps := by
    simp only [renderIf, text?_str, hvisible, liftM_ok, pure_bind, hevaluate]
  rw [hbranch, renderBranch, ShowsBody]
  cases hps with
  | plain _ d noRegion all =>
    rw [splitParts_of_forall noRegion, body_underCondition loop hpaths hunwrapped,
      Content.shown_enclose]
    dsimp only
    rw [List.append_nil, all]
    rfl
  | split before after region d e f noRegion isRegion first alternative last =>
    rw [splitParts_append noRegion isRegion, body_underConditionElse loop hpaths hunwrapped,
      Content.shown_encloseWith]
    dsimp only
    rw [renderParts_append, Content.shown_append, ← first, ← last, renderRegion, alternative]
    rfl

/-! ### Loops of a preview -/

theorem resolveGiven_str {path : String} (h : IsNamePath path.toList) (data : Value) :
    resolveGiven (.str path) data = pure (data.resolve path.toList) := by
  funext session
  rw [yields_resolveGiven path data session, readAll_singleton, h.read_eq]
  rfl

/-- What is not true has no items. -/
theorem items?_getD_of_not_isTruthy {v : Value} (h : v.isTruthy = false) : v.items?.getD [] = [] := by
  cases v with
  | list all | tuple all => simpa [Value.isTruthy, Value.holds, Value.items?] using h
  | _ => rfl

theorem current_of_items? {l : LoopScope} {all : List Value} {i : ℕ} {item : Value}
    (hitems : l.array.items? = some all) (hindex : l.index = some (i : ℤ)) (hitem : all[i]? = some item) :
    l.current = .ok item := by
  have hat : Value.itemAt all (i : ℤ) = item := by
    rw [Value.itemAt, if_pos (Int.natCast_nonneg i), Int.toNat_natCast, List.getD_eq_getElem?_getD,
      hitem, Option.getD_some]
  have hnot : ¬ (i : ℤ) < -(all.length : ℤ) := by omega
  rw [LoopScope.current, hindex]
  dsimp only
  cases harray : l.array with
  | list own | tuple own =>
    rw [harray] at hitems
    obtain rfl : own = all := Option.some.inj hitems
    rw [Value.itemFrom, if_neg hnot, hat]
  | _ =>
    rw [harray] at hitems
    cases hitems

/-- The rendering of items that come each to a text. -/
theorem renderItems_eq {body : Context → Value → ℕ → Pass Text} {scope : ℕ → Context}
    {f : Value → Pass Text} {position : ℕ} {all : List Value}
    (h : ∀ i item, all[i]? = some item → body (scope (position + i)) item (position + i) = f item) :
    renderItems body scope position all = shownEach f all := by
  induction all generalizing position with
  | nil => rfl
  | cons item rest ih =>
    have hrest : renderItems body scope (position + 1) rest = shownEach f rest := ih fun i other hother => by
      have hnext := h (i + 1) other (by simpa using hother)
      rwa [← Nat.add_assoc, Nat.add_right_comm] at hnext
    have hfirst : body (scope position) item position = f item := h 0 item rfl
    rw [renderItems, shownEach, hrest, hfirst]
    rfl

theorem Within.body (h : Within entries ctx loop items) {array : ArrayPath}
    {itemVar : Option PlainName} (harray : IsNamePath array.text)
    (hvar : ∀ v ∈ itemVar.map PlainName.text, IsIdentifier v) {l : LoopScope} {item : Value}
    (current : l.current = .ok item) (hl : l.itemVar = Tree.itemVarValue itemVar) (hitem : item.IsData) :
    Within entries { ctx with loop := some l } (some (Tree.enclosing loop array itemVar))
      ((itemVar.map PlainName.text, item) :: items) := by
  have hname : (Tree.enclosing loop array itemVar).name = itemVar.map PlainName.text := by
    rw [Enclosing.name, Tree.enclosing, Option.map_map]
    rfl
  have hspelled : (Tree.enclosing loop array itemVar).IsSpelled := by
    have hbody := h.encloses.body harray hvar
    rw [← hname] at hbody
    cases hbody with
    | within _ _ isSpelled => exact isSpelled
  rw [← hname]
  cases h with
  | root => exact .item l _ item _ current hl hitem hspelled
  | item => exact .item l _ item _ current hl hitem hspelled

/-- **Loops.** A preview shows the body of a loop for each item, as its block does. -/
theorem showsBody_previewEach (h : Within entries ctx loop items) (hdata : (Value.map entries).IsData)
    {array : ArrayPath} {itemVar : Option PlainName} (harray : IsNamePath array.text)
    (hvar : ∀ v ∈ itemVar.map PlainName.text, IsIdentifier v)
    {body : Context → Value → ℕ → Pass Text} (reads : List Text) {d : Draft}
    (hd : (d.body (some (Tree.enclosing loop array itemVar))).IsNamed)
    (hbody : ∀ l item i, Within entries { ctx with loop := some l }
        (some (Tree.enclosing loop array itemVar)) ((itemVar.map PlainName.text, item) :: items) →
      ShowsBody print entries (some (Tree.enclosing loop array itemVar))
        ((itemVar.map PlainName.text, item) :: items) (body { ctx with loop := some l } item i) d) :
    ShowsBody print entries loop items
      (previewEach body ctx (.str array.name) (Tree.itemVarValue itemVar))
      ⟨reads, .loop (Tree.head loop array itemVar) d.outline .done⟩ := by
  obtain ⟨visible, hvisible, hresolve⟩ := h.exists_scopedData
  have hfound := hresolve _ harray
  have hanswer := h.isAnswer_scopedAt hdata array.text
  have htemplate := h.scopedAt_inTemplate harray
  set found := scopedAt (.map entries) items array.text
  have hevaluate := Condition.evaluate_path harray (show (Value.map visible).isNothing = false from rfl)
  rw [PlainName.text, String.ofList_toList] at hevaluate
  change _ = Except.ok (Value.resolve array.text (Value.map visible)).isTruthy at hevaluate
  rw [hfound] at hevaluate
  have hgiven : resolveGiven (.str array.name) (.map visible) = pure found :=
    (resolveGiven_str harray _).trans (congrArg pure hfound)
  -- the template and the preview loop over the same value, `found`
  rw [ShowsBody, body_loop h.encloses hvar reads hd, Content.shown, htemplate, Content.shown,
    followed_nil, nil_followed, previewEach]
  simp only [hvisible, liftM_ok, pure_bind, hevaluate, hgiven]
  cases htrue : found.isTruthy with
  | false =>
    rw [items?_getD_of_not_isTruthy htrue]
    rfl
  | true =>
    cases hitems : found.items? with
    | none => rfl
    | some all =>
      have hfoundData : found.IsData := hanswer.resolve_right (by rintro he; rw [he] at hitems; cases hitems)
      refine renderItems_eq fun i item hitem => ?_
      have hcurrent : LoopScope.current ⟨Value.displayString (.str array.name), found,
          some ((0 + i : ℕ) : ℤ), Tree.itemVarValue itemVar⟩ = .ok item :=
        current_of_items? hitems (by simp) hitem
      exact hbody _ item _ (h.body harray hvar hcurrent rfl
        (hfoundData.items hitems item (List.mem_of_getElem? hitem)))

/-- A loop of a preview. -/
theorem renderNode_previewEach (array : ArrayPath) (itemVar : Option PlainName) (children : List Value) :
    renderNode ⟨.preview, isBuilding⟩ onward
        (Element.each (.str array.name) children (Tree.itemVarValue itemVar)) ctx =
      previewEach (renderBody ⟨.preview, isBuilding⟩ onward
          (Render.parts ⟨.preview, isBuilding⟩ onward children)) ctx
        (.str array.name) (Tree.itemVarValue itemVar) := by
  have harray : (Value.str array.name).holds = true := by
    simpa [Value.holds] using array.ne_nil
  simp only [Element.each, renderNode, Mapping.getD, Mapping.at?, Mapping.get?, Value.sameKey_str]
  simp [givenText, harray]

/-- A body that is no function is rendered part by part. -/
theorem renderBody_eq {ps : List Part} (hclosure : ∀ p ∈ ps, p.node.isClosure = false) (item : Value)
    (i : ℕ) :
    renderBody ⟨.preview, isBuilding⟩ onward (pure ps) ctx item i = renderParts ctx ps := by
  unfold renderBody
  rw [pure_bind]
  split
  · next p => rw [if_neg (by simp [hclosure p (by simp)])]
  · rfl

/-! ### Value references of a preview -/

/-- The value that a reference shows is that of its path in the template. -/
theorem shownValue_eq (h : Within entries ctx loop items) {name : PlainName} (hname : IsNamePath name.text) :
    ∃ path plain, (Tree.regions loop (.val name .nothing)).whole = .reference path plain ∧
      '[' ∉ path ∧
      shownValue ctx (.str name.name) .null = pure (scopedAt (.map entries) items path) := by
  cases h with
  | root =>
    refine ⟨name.text, name.angle_not_mem, by simp only [Tree.regions]; rfl,
      hname.not_mem (by decide) (by decide), ?_⟩
    have hholds : (Value.str name.name).holds = true := by
      simpa [Value.holds, PlainName.text] using hname.ne_nil
    simp only [shownValue, Value.isNull, if_true, hholds]
    exact resolveGiven_str hname _
  | item l e item outer current itemVar isData isSpelled =>
    have hrelative : l.relative (.str name.name) = .ok (relativePath name.text e.itemVar) :=
      relative_str itemVar _
    have hvalue : scopedAt (.map entries) ((e.name, item) :: outer) (Tree.itemPath name e) =
        item.resolve (relativePath name.text e.itemVar) := by
      rw [scopedAt, firstName_itemPath]
      exact if_pos (.inl rfl)
    refine ⟨Tree.itemPath name e, Tree.angle_not_mem_itemPath name e, by simp only [Tree.regions]; rfl,
      (isReference_itemPath e hname).2, ?_⟩
    simp only [shownValue, current, hrelative, liftM_ok, pure_bind, hvalue]
    -- the name is the item itself or a path into it
    rcases isNamePath_relativePath isSpelled hname with hnil | hpath
    · rw [hnil]
      rfl
    · have hlookup : item.lookup (relativePath name.text e.itemVar) =
          .ok (item.resolve (relativePath name.text e.itemVar)) :=
        Value.lookup_eq_ok_iff.mpr ⟨⟨_, hpath.read_eq⟩, rfl⟩
      rw [if_neg (by simpa using hpath.ne_nil), hlookup]
      rfl

/-- **References.** A preview shows the value that the reference of the template is to. -/
theorem showsBody_previewVal (h : Within entries ctx loop items) (hdata : (Value.map entries).IsData)
    (honward : ∀ ctx v, v.IsData → onward ctx v = print v) {name : PlainName}
    (hname : IsNamePath name.text) {value : Component.Tree} (hvalue : items = [] → value = .nothing) :
    ShowsBody print entries loop items (previewVal onward ctx (.str name.name) value.toValue)
      (Tree.regions loop (.val name value)).whole := by
  -- the value that is given for a reference matters outside of loops only
  obtain ⟨hpreview, hval⟩ : previewVal onward ctx (.str name.name) value.toValue =
        previewVal onward ctx (.str name.name) .null ∧
      Tree.regions loop (.val name value) = Tree.regions loop (.val name .nothing) := by
    cases h with
    | root =>
      rw [hvalue rfl]
      exact ⟨rfl, rfl⟩
    | item => exact ⟨by simp only [previewVal, shownValue], by simp only [Tree.regions]⟩
  rw [hpreview, hval]
  obtain ⟨path, plain, hregions, hpath, hvalue⟩ := shownValue_eq h hname
  rw [ShowsBody, hregions, body_reference loop plain hpath, Content.shown, Content.shown, followed_nil,
    nil_followed, previewVal, hvalue, pure_bind]
  cases hnothing : (scopedAt (.map entries) items path).isNothing with
  | true => rfl
  | false => exact honward ctx _ ((h.isAnswer_scopedAt hdata path).isData hnothing)

end Parts

/-! ### Trees -/

section Trees

variable (isBuilding : Bool) (onward : Context → Value → Pass Text) (print : Value → Pass Text)
  (entries : Mapping)

/-- A value whose preview is what the body that regions are compiled to shows, alone and as a child. -/
structure Shows (loops : List (Option Text)) (v : Value) (r : Option Enclosing → Regions) : Prop where
  node : ∀ ⦃ctx loop items⦄, Within entries ctx loop items → items.map Prod.fst = loops →
    ShowsBody print entries loop items (renderNode ⟨.preview, isBuilding⟩ onward v ctx) (r loop).whole
  parts : ∃ ps, partsOf ⟨.preview, isBuilding⟩ onward v = pure ps ∧
    (∀ p ∈ ps, p.node.isClosure = false) ∧
    ∀ ⦃ctx loop items⦄, Within entries ctx loop items → items.map Prod.fst = loops →
      Fits (ShowsBody print entries loop items) ctx ps (r loop)

/-- Values whose previews are what the body that regions are compiled to shows, one after the other and
as children. -/
structure ShowsAll (loops : List (Option Text)) (vs : List Value) (r : Option Enclosing → Regions) :
    Prop where
  all : ∀ ⦃ctx loop items⦄, Within entries ctx loop items → items.map Prod.fst = loops →
    ShowsBody print entries loop items (renderAll ⟨.preview, isBuilding⟩ onward vs ctx) (r loop).whole
  parts : ∃ ps, Render.parts ⟨.preview, isBuilding⟩ onward vs = pure ps ∧
    (∀ p ∈ ps, p.node.isClosure = false) ∧
    ∀ ⦃ctx loop items⦄, Within entries ctx loop items → items.map Prod.fst = loops →
      Fits (ShowsBody print entries loop items) ctx ps (r loop)

variable {isBuilding onward print entries} {loops : List (Option Text)}

/-- A child that is one part by itself, and no alternative. -/
theorem Shows.of_plain {v : Value} {d : Option Enclosing → Draft}
    (hparts : partsOf ⟨.preview, isBuilding⟩ onward v =
      pure [⟨v, renderNode ⟨.preview, isBuilding⟩ onward v⟩])
    (hclosure : v.isClosure = false) (hregion : v.helper? ≠ some .otherwise)
    (h : ∀ ⦃ctx loop items⦄, Within entries ctx loop items → items.map Prod.fst = loops →
      ShowsBody print entries loop items (renderNode ⟨.preview, isBuilding⟩ onward v ctx) (d loop)) :
    Shows isBuilding onward print entries loops v fun loop => .plain (d loop) := by
  refine ⟨h, _, hparts, by simpa using hclosure, fun ctx loop items hwithin hloops => ?_⟩
  refine .plain _ _ (by simpa using hregion) ?_
  have hcons := ShowsBody.append (h hwithin hloops) showsBody_done
  rwa [Draft.append_done] at hcons

/-- What has no parts shows nothing. -/
theorem Shows.of_empty {v : Value}
    (hnode : ∀ ctx, renderNode ⟨.preview, isBuilding⟩ onward v ctx = pure [])
    (hparts : partsOf ⟨.preview, isBuilding⟩ onward v = pure []) :
    Shows isBuilding onward print entries loops v fun _ => .plain .done := by
  refine ⟨fun ctx loop items _ _ => ?_, [], hparts, by simp,
    fun ctx loop items _ _ => .plain [] _ (by simp) showsBody_done⟩
  rw [hnode]
  exact showsBody_done

/-- A text shows itself. -/
theorem showsBody_shown {loop : Option Enclosing} {items : List (Option Text × Value)} (v : Value) :
    ShowsBody print entries loop items (pure (Markup.escape v.display)) (Tree.shown v) := by
  rw [ShowsBody, Tree.shown, body_run]
  rfl

/-- A value that is displayed shows its text. -/
theorem Shows.of_displayed {v : Value}
    (hparts : partsOf ⟨.preview, isBuilding⟩ onward v =
      pure [⟨v, renderNode ⟨.preview, isBuilding⟩ onward v⟩])
    (hclosure : v.isClosure = false) (hregion : v.helper? ≠ some .otherwise)
    (hnode : ∀ ctx, renderNode ⟨.preview, isBuilding⟩ onward v ctx = pure (Markup.escape v.display)) :
    Shows isBuilding onward print entries loops v fun _ => .plain (Tree.shown v) :=
  .of_plain hparts hclosure hregion fun ctx _ _ _ _ => by
    rw [hnode]
    exact showsBody_shown v

/-- An element shows its tags around what is inside it. -/
theorem showsBody_renderTag {loop : Option Enclosing} {items : List (Option Text × Value)} {tag : TagName}
    {attributes : List Property} {inside : Pass Text} {d : Draft}
    (h : Markup.isVoid tag.name = false → ShowsBody print entries loop items inside d) :
    ShowsBody print entries loop items (renderTag tag.name (Tree.properties attributes) inside)
      (Tree.elementDraft tag attributes d) := by
  have hclosing : (Tree.shell tag attributes).closing =
      if Markup.isVoid tag.name then [] else '<' :: '/' :: (tag.name.toList ++ ['>']) := rfl
  rw [ShowsBody, body_element, Content.shown_prepend, Content.shown_append, renderTag_properties]
  by_cases hvoid : Markup.isVoid tag.name
  · rw [if_pos hvoid, if_pos hvoid, hclosing, if_pos hvoid]
    simp [Content.shown, followed]
  · rw [if_neg hvoid, if_neg hvoid, ← h (by simpa using hvoid)]
    simp only [Content.shown, followed, bind_assoc, pure_bind, List.append_assoc]

/-! ### Values one after the other -/

section All

variable {v : Value} {vs : List Value} {r rs : Option Enclosing → Regions}

theorem ShowsAll.nil : ShowsAll isBuilding onward print entries loops [] fun _ => .plain .done := by
  refine ⟨fun ctx loop items _ _ => ?_, [], by simp only [Render.parts], by simp,
    fun ctx loop items _ _ => .plain [] _ (by simp) showsBody_done⟩
  simp only [renderAll]
  exact showsBody_done

theorem ShowsAll.cons (h : Shows isBuilding onward print entries loops v r)
    (hall : ShowsAll isBuilding onward print entries loops vs rs) :
    ShowsAll isBuilding onward print entries loops (v :: vs) fun loop => (r loop).append (rs loop) := by
  obtain ⟨node, ps, hps, hclosure, hfits⟩ := h
  obtain ⟨all, qs, hqs, hclosure', hfits'⟩ := hall
  refine ⟨fun ctx loop items hwithin hloops => ?_, ps ++ qs, ?_,
    List.forall_mem_append.mpr ⟨hclosure, hclosure'⟩,
    fun ctx loop items hwithin hloops =>
      (hfits hwithin hloops).append ShowsBody.append (hfits' hwithin hloops)⟩
  · simp only [renderAll]
    rw [Regions.whole_append]
    exact ShowsBody.append (node hwithin hloops) (all hwithin hloops)
  · simp only [Render.parts, hps, hqs, pure_bind]

/-- The parts of a list are its children's. -/
theorem ShowsAll.list (h : ShowsAll isBuilding onward print entries loops vs r) :
    Shows isBuilding onward print entries loops (.list vs) r := by
  obtain ⟨all, ps, hps, hclosure, hfits⟩ := h
  refine ⟨fun _ _ _ hwithin hloops => ?_, ps, ?_, hclosure, hfits⟩
  · simp only [renderNode]
    exact all hwithin hloops
  · simp only [partsOf]
    exact hps

/-- An alternative is one part, which begins the second branch of the conditional around it. -/
theorem ShowsAll.otherwise (h : ShowsAll isBuilding onward print entries loops vs r) :
    Shows isBuilding onward print entries loops (.element (.helper .otherwise) [] vs)
      fun loop => .split .done (r loop).whole .done := by
  refine ⟨fun ctx loop items hwithin hloops => ?_, [_], by simp [partsOf]; rfl,
    by simp [Value.isClosure], fun ctx loop items hwithin hloops => ?_⟩
  · simp only [renderNode]
    simpa [Regions.whole] using h.all hwithin hloops
  · refine .split [] [] _ _ _ _ (by simp) rfl showsBody_done ?_ showsBody_done
    simp only [renderNode]
    exact h.all hwithin hloops

end All

/-! ### Every tree -/

mutual

/-- **Trees.** A preview of a tree shows what the regions of the tree are compiled to. -/
theorem shows_tree (hdata : (Value.map entries).IsData)
    (honward : ∀ ctx v, v.IsData → onward ctx v = print v) :
    (t : Component.Tree) → ∀ {loops : List (Option Text)},
      (∀ l ∈ t.lookups loops, IsNamed l ∧ l.2 ≠ .given) →
        Shows isBuilding onward print entries loops t.toValue fun loop => t.regions loop
  | .text s, _, _ => by
    simp only [Tree.toValue, Tree.regions]
    exact .of_displayed (by simp [partsOf]) rfl (by simp [Value.helper?]) fun _ => by
      simp only [renderNode, Markup.escapeText]
  | .int i, _, _ => by
    simp only [Tree.toValue, Tree.regions]
    exact .of_displayed (by simp [partsOf]) rfl (by simp [Value.helper?]) fun _ => by
      simp only [renderNode, Markup.escapeText]
  | .float x, _, _ => by
    simp only [Tree.toValue, Tree.regions]
    exact .of_displayed (by simp [partsOf]) rfl (by simp [Value.helper?]) fun _ => by
      simp only [renderNode, Markup.escapeText]
  | .nothing, _, _ => by
    simp only [Tree.toValue, Tree.regions]
    exact .of_empty (fun _ => by simp only [renderNode]) (by simp only [partsOf])
  | .truth b, _, _ => by
    simp only [Tree.toValue, Tree.regions]
    exact .of_empty (fun _ => by simp only [renderNode]) (by simp only [partsOf])
  | .list items, _, hn => by
    simp only [Tree.lookups] at hn
    simp only [Tree.toValue, Tree.regions]
    exact (shows_trees hdata honward items hn).list
  | .fragment children, _, hn => by
    simp only [Tree.lookups] at hn
    have h := (shows_trees hdata honward children hn).all
    simp only [Tree.toValue, Tree.regions, Element.fragment]
    refine .of_plain (by simp [partsOf]) rfl (by simp [Value.helper?]) fun _ _ _ hwithin hloops => ?_
    simp only [renderNode]
    exact h hwithin hloops
  | .element tag attributes children, _, hn => by
    simp only [Tree.lookups] at hn
    simp only [Tree.toValue, Tree.regions]
    refine .of_plain (by simp [partsOf]) rfl (by simp [Value.helper?]) fun _ _ _ hwithin hloops => ?_
    simp only [renderNode]
    refine showsBody_renderTag fun hvoid => ?_
    rw [hvoid, if_neg (by simp)] at hn
    exact (shows_trees hdata honward children hn).all hwithin hloops
  | .ifThen condition children, _, hn => by
    simp only [Tree.lookups, List.forall_mem_cons] at hn
    obtain ⟨-, ps, hps, -, hfits⟩ := shows_trees hdata honward children hn.2
    simp only [Tree.toValue, Tree.regions, Element.ifThen]
    refine .of_plain (by simp [partsOf]) rfl (by simp [Value.helper?]) fun _ _ _ hwithin hloops => ?_
    subst hloops
    simp only [renderNode, hps, pure_bind]
    exact showsBody_renderIf hwithin hn.1.1 (hfits hwithin rfl)
  | .otherwise children, _, hn => by
    simp only [Tree.lookups] at hn
    simp only [Tree.toValue, Tree.regions, Element.otherwise]
    exact (shows_trees hdata honward children hn).otherwise
  | .each array itemVar children, _, hn => by
    simp only [Tree.lookups, List.forall_mem_cons] at hn
    obtain ⟨⟨⟨harray, hvar⟩, -⟩, hn⟩ := hn
    obtain ⟨-, ps, hps, hclosure, hfits⟩ := shows_trees hdata honward children hn
    simp only [Tree.toValue, Tree.regions]
    refine .of_plain (by simp [Element.each, partsOf]) rfl (by simp [Element.each, Value.helper?])
      fun _ _ _ hwithin hloops => ?_
    subst hloops
    rw [renderNode_previewEach, hps]
    have hd := (isCompiled_regionsAll children (hwithin.encloses.body harray hvar)
      fun l hl => (hn l hl).1).whole IsCompiled.append
    refine showsBody_previewEach hwithin hdata harray hvar _ hd.isNamed fun l item i hbody => ?_
    rw [renderBody_eq hclosure]
    exact (hfits hbody rfl).whole ShowsBody.append
  | .val name value, loops, hn => by
    have hgiven : IsNamePath name.text ∧ (loops = [] → value = .nothing) := by
      cases loops with
      | cons own outer =>
        simp only [Tree.lookups, List.forall_mem_singleton] at hn
        exact ⟨hn.1.1, nofun⟩
      | nil =>
        cases value with
        | nothing =>
          simp only [Tree.lookups, Tree.isNothing, List.forall_mem_singleton] at hn
          exact ⟨hn.1.1, fun _ => rfl⟩
        | _ =>
          simp only [Tree.lookups, Tree.isNothing, List.forall_mem_cons] at hn
          exact absurd rfl hn.1.2
    rw [funext fun loop => Tree.regions_val loop name value]
    simp only [Tree.toValue, Element.val]
    refine .of_plain (by simp [partsOf]) rfl (by simp [Value.helper?]) fun _ _ _ hwithin hloops => ?_
    subst hloops
    simp only [renderNode]
    simp only [Mapping.getD, Mapping.at?, Mapping.get?, Value.sameKey_str]
    exact showsBody_previewVal hwithin hdata honward hgiven.1
      fun hnil => hgiven.2 (by rw [hnil, List.map_nil])

theorem shows_trees (hdata : (Value.map entries).IsData)
    (honward : ∀ ctx v, v.IsData → onward ctx v = print v) :
    (ts : List Component.Tree) → ∀ {loops : List (Option Text)},
      (∀ l ∈ Tree.lookupsAll loops ts, IsNamed l ∧ l.2 ≠ .given) →
        ShowsAll isBuilding onward print entries loops (Tree.toValues ts)
          fun loop => Tree.regionsAll loop ts
  | [], _, _ => by
    simp only [Tree.toValues, Tree.regionsAll]
    exact .nil
  | t :: rest, _, hn => by
    simp only [Tree.lookupsAll, List.forall_mem_append] at hn
    simp only [Tree.toValues, Tree.regionsAll]
    exact .cons (shows_tree hdata honward t hn.1) (shows_trees hdata honward rest hn.2)

end

end Trees

/-! ### Templates of trees -/

theorem readAll_of_isNamePath {paths : List Text} (h : ∀ p ∈ paths, IsNamePath p) :
    readAll paths = .ok () := by
  induction paths with
  | nil => rfl
  | cons p rest ih =>
    rw [← List.singleton_append, readAll_append, readAll_singleton, (h p (by simp)).read_eq,
      ih fun q hq => h q (List.mem_cons_of_mem p hq)]
    rfl

/-- **Reading templates.** The template of a tree that looks up paths of names is read as the body that
the tree is compiled to. -/
theorem read_rewritten (isBuilding : Bool) (sample : Value) {t : Component.Tree}
    (hnamed : ∀ l ∈ t.lookups [], IsNamed l)
    (hruns : t.draft.outline.compiled.EveryRun ('\x7b' ∉ ·)) :
    ∃ template, rewritten isBuilding sample t.toValue = .ok template ∧
      Content.read template = some t.draft.outline.compiled := by
  have h : IsCompiled none t.draft := (isCompiled_regions t .root hnamed).whole IsCompiled.append
  have hloops : ∀ {ok : PlainHead → Prop}, (∀ head, IsJoined head.array → ok head) →
      t.draft.outline.EveryLoop ok := fun hok => h.isJoined.imp hok
  have hsteady : t.draft.outline.Steady := .inl (hloops fun head hjoined =>
    ⟨hjoined.not_mem (by decide) (by decide), hjoined.not_mem (by decide) (by decide)⟩)
  have hchars : ∀ c ∈ tagChars, isIdentifierChar c = false ∧ c ∉ ['.', '[', ']'] := by decide
  have hbare : t.draft.outline.EveryLoop fun head => IsBare head.array := hloops fun head hjoined c hc =>
    hjoined.not_mem (hchars c hc).1 (hchars c hc).2
  obtain ⟨journal, hlowered⟩ := Outline.lowerTags_written hsteady []
  refine ⟨t.draft.outline.template, ?_, ?_⟩
  · rw [rewritten_eq, hlowered, readAll_of_isNamePath h.isNamePath_of_mem]
    rfl
  · have hbody : t.draft.outline.compiled.IsNamed := by
      rw [← Content.isNamed_bare, Outline.bare_compiled, Content.isNamed_bare]
      exact h.isNamed
    rw [← Outline.written_compiled hbare]
    exact Content.read_written (hbody.readable hruns)

/-- **Previews.** A preview of a tree shows what the draft of the tree is compiled to, where every path
leads as it does in a preview. -/
theorem render_eq_shown (isBuilding : Bool) {t : Component.Tree}
    (hlookups : ∀ l ∈ t.lookups [], IsNamed l ∧ l.2 ≠ .given) {entries : Mapping}
    (hdata : (Value.map entries).IsData) :
    render ⟨.preview, isBuilding⟩ { data := .map entries } t.toValue =
      t.draft.outline.content.shown (render ⟨.preview, isBuilding⟩ {}) (scopedAt (.map entries)) [] := by
  have honward : ∀ ctx v, v.IsData → renderWithin ⟨.preview, isBuilding⟩ 999 ctx v =
      render ⟨.preview, isBuilding⟩ {} v := fun ctx v hv => renderNode_of_isData hv ctx {}
  exact (shows_tree hdata honward t hlookups).node .root rfl

/-- **Previews and templates agree.** Where the paths of a tree are paths of names that stay, inside a
loop, in the item of this loop, and no constant text has a brace in it or passes for an item, the tree
has a template, and a preview of data is what the template shows for the data. -/
theorem preview_eq_shown (isBuilding : Bool) (sample : Value) {t : Component.Tree}
    (hlookups : ∀ l ∈ t.lookups [], IsNamed l ∧ IsLocal l)
    (hruns : t.draft.outline.content.EveryRun fun r => '\x7b' ∉ r ∧ Itemless r) :
    ∃ template b, rewritten isBuilding sample t.toValue = .ok template ∧
      Content.read template = some b ∧
      ∀ entries, (Value.map entries).IsData →
        render ⟨.preview, isBuilding⟩ { data := .map entries } t.toValue =
          b.shown (render ⟨.preview, isBuilding⟩ {}) (valueAt (.map entries)) [] := by
  have hnamed : ∀ l ∈ t.lookups [], IsNamed l := fun l hl => (hlookups l hl).1
  have hcompiled := Outline.compiled_eq_content (hruns.imp fun _ hr => hr.2)
  obtain ⟨template, hrewritten, hread⟩ := read_rewritten isBuilding sample hnamed
    (hcompiled ▸ hruns.imp fun _ hr => hr.1)
  rw [hcompiled] at hread
  have hlocal : ∀ x ∈ t.draft.outline.content.paths [], IsLocalPath x.1 x.2 := by
    intro x hx
    by_contra hstray
    have hpath := (mem_paths_body_iff hstray t .root hnamed).mp hx
    obtain ⟨l, hl, hpath⟩ := List.mem_flatMap.mp hpath
    obtain ⟨p, hp, rfl⟩ := List.mem_map.mp hpath
    exact hstray ((hlookups l hl).2.2 p hp)
  refine ⟨template, _, hrewritten, hread, fun entries hdata => ?_⟩
  rw [render_eq_shown isBuilding (fun l hl => ⟨hnamed l hl, (hlookups l hl).2.1⟩) hdata]
  refine Content.shown_congr fun x hx items hitems => scopedAt_eq_valueAt ?_ _
  rw [hitems]
  exact hlocal x hx

/-- A loop in a loop, beside a part of its item, around a conjunction with an alternative. -/
def ledger : Component.Tree :=
  .each ⟨⟨"groups", by decide⟩, by decide⟩ (some ⟨"g", by decide⟩)
    [.element ⟨"ul", by decide, by decide⟩ []
      [.val ⟨"title", by decide⟩ .nothing,
        .each ⟨⟨"g.members", by decide⟩, by decide⟩ none
          [.ifThen "this.name && !this.hidden" [.val ⟨"name", by decide⟩ .nothing,
            .otherwise [.text "-"]]]]]

/-- A group with two members, of which one is hidden. -/
def staff : Mapping :=
  [(.str "groups", .list [.map [(.str "title", .str "A"), (.str "members", .list [
    .map [(.str "name", .str "n"), (.str "hidden", .bool false)],
    .map [(.str "name", .str "m"), (.str "hidden", .bool true)]])]])]

theorem preview_ledger :
    ((∀ l ∈ ledger.lookups [], IsNamed l ∧ IsLocal l) ∧
      (ledger.draft.outline.content.EveryRun fun r => '\x7b' ∉ r ∧ Itemless r) ∧
      (Value.map staff).IsData) ∧
    ∃ template b, rewritten false .null ledger.toValue = .ok template ∧
      Content.read template = some b ∧
      render ⟨.preview, false⟩ { data := .map staff } ledger.toValue =
        b.shown (render ⟨.preview, false⟩ {}) (valueAt (.map staff)) [] := by
  have hlookups : ∀ l ∈ ledger.lookups [], IsNamed l ∧ IsLocal l := by decide +kernel
  have hruns : ledger.draft.outline.content.EveryRun fun r => '\x7b' ∉ r ∧ Itemless r := by
    decide +kernel
  have hdata : (Value.map staff).IsData := by simp [staff]
  obtain ⟨template, b, hrewritten, hread, hshown⟩ := preview_eq_shown false .null hlookups hruns
  exact ⟨⟨hlookups, hruns, hdata⟩, template, b, hrewritten, hread, hshown staff hdata⟩

/-- Two texts in a loop that pass for an item of the loop where they meet. -/
def glued : Component.Tree :=
  .each ⟨⟨"rows", by decide⟩, by decide⟩ none [.text "rows.", .text "[0]"]

/-- A reference that is written like the tag before an alternative. -/
def reserved : Component.Tree :=
  .ifThen "x" [.text "a", .val ⟨"else", by decide⟩ .nothing, .text "b"]

/-- The template of `reserved` has an alternative, which a preview does not know of. -/
private theorem render_reserved :
    render ⟨.preview, false⟩ { data := .map [(.str "x", .bool true)] } reserved.toValue {} =
      .ok ("ab".toList, {}) := by
  have htext : ∀ onward s, renderNode ⟨.preview, false⟩ onward (.str s) =
      fun _ => pure (Markup.escape (Value.str s).display) := fun _ _ => by
    funext ctx
    simp only [renderNode]
    rfl
  have hval : ∀ onward, renderNode ⟨.preview, false⟩ onward (Element.val (.str "else") .null) =
      fun ctx => previewVal onward ctx (.str "else") .null := fun _ => by
    funext ctx
    simp only [Element.val, renderNode]
    rfl
  have hif : ∀ ps, renderIf ⟨.preview, false⟩ { data := .map [(.str "x", .bool true)] } (.str "x") ps =
      renderBranch { data := .map [(.str "x", .bool true)] } true ps := fun ps => by
    have hdata : ({ data := .map [(.str "x", .bool true)] } : Context).scopedData =
        .ok (.map [(.str "x", .bool true)]) := rfl
    have hholds : Condition.evaluate (.str "x") (.map [(.str "x", .bool true)]) = .ok true :=
      (Condition.evaluate_str "x" rfl).trans rfl
    simp only [renderIf, text?_str, hdata, liftM_ok, pure_bind, hholds]
  change renderNode ⟨.preview, false⟩ (renderWithin ⟨.preview, false⟩ 999) reserved.toValue _ {} = _
  simp only [reserved, Tree.toValue, Tree.toValues, Element.ifThen, renderNode, Render.parts,
    partsOf, Element.val, pure_bind]
  rw [← Element.val, hval, htext, htext]
  exact (congrFun (hif _) _).trans rfl

/-- **Texts that meet.** It is not enough that no single text passes for an item, and outside of loops a
reference by the name `else` is no reference in a template. -/
theorem preview_ne_shown :
    ((∀ l ∈ glued.lookups [], IsNamed l ∧ IsLocal l) ∧
      (∀ s ∈ ["rows.", "[0]"], '\x7b' ∉ s.toList ∧ Itemless s.toList) ∧
      ∃ template b, rewritten false .null glued.toValue = .ok template ∧
        Content.read template = some b ∧
        render ⟨.preview, false⟩ { data := .map [(.str "rows", .list [.int 1])] } glued.toValue ≠
          b.shown (render ⟨.preview, false⟩ {})
            (valueAt (.map [(.str "rows", .list [.int 1])])) []) ∧
    (IsConjunction "x".toList ∧ IsNamePath "else".toList) ∧
      ∃ template b, rewritten false .null reserved.toValue = .ok template ∧
        Content.read template = some b ∧
        render ⟨.preview, false⟩ { data := .map [(.str "x", .bool true)] } reserved.toValue ≠
          b.shown (render ⟨.preview, false⟩ {}) (valueAt (.map [(.str "x", .bool true)])) [] := by
  have hglued : ∀ l ∈ glued.lookups [], IsNamed l ∧ IsLocal l := by decide +kernel
  refine ⟨⟨hglued, by decide +kernel, "\x7b\x7b#each rows\x7d\x7dthis\x7b\x7b/each\x7d\x7d".toList,
    .loop [] "rows".toList none (.text "this".toList) (.text []), ?_, rfl, fun h => ?_⟩,
    by decide +kernel, "\x7b\x7b#if x\x7d\x7da\x7b\x7belse\x7d\x7db\x7b\x7b/if\x7d\x7d".toList,
    .choice [] false "x".toList (.text ['a']) (.text ['b']) (.text []), ?_, rfl, fun h => ?_⟩
  · rw [rewritten_eq]
    rfl
  · have hdata : (Value.map [(.str "rows", .list [.int 1])]).IsData := by simp
    have hungiven : ∀ l ∈ glued.lookups [], IsNamed l ∧ l.2 ≠ .given := fun l hl =>
      ⟨(hglued l hl).1, (hglued l hl).2.1⟩
    have hpreview := render_eq_shown false hungiven hdata
    have htext := congrFun (hpreview.symm.trans h) {}
    cases htext
  · rw [rewritten_eq]
    rfl
  · have htext := render_reserved.symm.trans (congrFun h {})
    cases htext

end Stencil.Render
