import Stencil.Proofs.Component.Tame
import Stencil.Proofs.Condition.Levels
import Stencil.Render.Tree

/-!
# What a preview shows

A preview shows a tree without helpers: loops are unrolled, conditions are decided, references are
replaced by what they refer to, and components by the trees they return. `Expands` says which tags
and texts such a tree consists of, with no mention of how they are written.

The main statement is `render_read_back`: **the preview of a tame tree is read back as the tags and
texts of its expansion.** Whatever texts the tree and its data hold, none of them is read as
anything but the text it is: a text between tags, or the value of the attribute it is given to.
-/

namespace Stencil.Render

open Markup Template Component

/-! ### Expansions -/

/-- Whether a condition holds: a text for the data, and anything else by itself. -/
def decision (ctx : Context) (condition : Value) : Except Failure Bool :=
  match condition.text? with
  | none => pure condition.isTruthy
  | some _ => do Condition.evaluate condition (← ctx.scopedData)

/-- What is shown of the flat children of a conditional: all but the first alternative, or this
alone. -/
def branch (holds : Bool) (flat : List Value) : List Value :=
  let (before, region, after) := Element.splitElse flat
  if holds then before ++ after else region.toList

/-- The array of a loop, if it is true as a condition. -/
def loopArray (ctx : Context) (array : Value) : Pass Value := do
  let data ← ctx.scopedData
  if ← Condition.evaluate array data then resolveGiven array data else pure .absent

/-- The context of an item of a loop. -/
def itemContext (ctx : Context) (array found itemVar : Value) (index : ℕ) : Context :=
  { ctx with loop := some ⟨array.displayString, found, some index, itemVar⟩ }

/-- The body of a loop for an item: what a single function returns for it, or the flat children. -/
def bodyFor (isBuilding : Bool) (children : List Value) (item : Value) (index : ℕ) :
    Pass (List Value) := do
  match ← Element.flatten children with
  | [child] =>
    if child.isClosure then do
      let v ← callItem isBuilding child item index
      pure [v]
    else pure [child]
  | flat => pure flat

/-- Whether a node is shown as its text. -/
def isShownAsText : Value → Bool
  | .int _ | .float _ | .str _ | .bytes _ | .fragmentType | .helper _ | .set _ | .date _
  | .moment _ => true
  | .object attributes => !Value.marksElement attributes
  | _ => false

/-- Whether nothing is shown of a node. -/
def isSilent : Value → Bool
  | .null | .absent | .bool _ => true
  | _ => false

mutual

/-- **Expansion.** The tags and texts that a preview shows of a node. Of a generator it shows those
items that nobody has drawn before. -/
inductive Expands (isBuilding : Bool) : Context → Value → List Token → Prop
  | nothing {ctx : Context} {v : Value} (silent : isSilent v = true) : Expands isBuilding ctx v []
  | text {ctx : Context} {v : Value} (shown : isShownAsText v = true) :
      Expands isBuilding ctx v [.text v.display]
  | list {ctx : Context} {items : List Value} {tokens : List Token}
      (all : ExpandsAll isBuilding ctx items tokens) : Expands isBuilding ctx (.list items) tokens
  | tuple {ctx : Context} {items : List Value} {tokens : List Token}
      (all : ExpandsAll isBuilding ctx items tokens) : Expands isBuilding ctx (.tuple items) tokens
  | generator {ctx : Context} {id : ℕ} {items left : List Value} {tokens : List Token}
      (drawn : left.Sublist items) (all : ExpandsAll isBuilding ctx left tokens) :
      Expands isBuilding ctx (.generator id items) tokens
  | void {ctx : Context} {tag : String} {props : Mapping} {children : List Value}
      (isVoid : isVoid tag = true) :
      Expands isBuilding ctx (.element (.str tag) props children) [.start tag (attributesOf props)]
  | tag {ctx : Context} {tag : String} {props : Mapping} {children : List Value}
      {tokens : List Token} (notVoid : isVoid tag = false)
      (all : ExpandsAll isBuilding ctx children tokens) :
      Expands isBuilding ctx (.element (.str tag) props children)
        (.start tag (attributesOf props) :: tokens ++ [.finish tag])
  | fragment {ctx : Context} {props : Mapping} {children : List Value} {tokens : List Token}
      (all : ExpandsAll isBuilding ctx children tokens) :
      Expands isBuilding ctx (.element .fragmentType props children) tokens
  | component {ctx : Context} {name : String} {scope : Scope} {body : Body}
      {traits : List (String × Value)} {props : Mapping} {children : List Value} {v : Value}
      {tokens : List Token}
      (called : MayReturn
        (call isBuilding (.closure name scope body traits) (withChildren props children)) v)
      (node : Expands isBuilding ctx v tokens) :
      Expands isBuilding ctx (.element (.closure name scope body traits) props children) tokens
  | provider {ctx : Context} {props : Mapping} {children : List Value} {tokens : List Token}
      (all : ExpandsAll isBuilding { ctx with data := props.getD "data" } children tokens) :
      Expands isBuilding ctx (.element (.helper .provider) props children) tokens
  | ifThen {ctx : Context} {props : Mapping} {children flat : List Value} {holds : Bool}
      {tokens : List Token} (flattened : MayReturn (Element.flatten children) flat)
      (decided : decision ctx (props.getD "condition") = .ok holds)
      (all : ExpandsAll isBuilding ctx (branch holds flat) tokens) :
      Expands isBuilding ctx (.element (.helper .ifThen) props children) tokens
  | otherwise {ctx : Context} {props : Mapping} {children : List Value} {tokens : List Token}
      (all : ExpandsAll isBuilding ctx children tokens) :
      Expands isBuilding ctx (.element (.helper .otherwise) props children) tokens
  | each {ctx : Context} {props : Mapping} {children : List Value} {found : Value}
      {tokens : List Token}
      (looked : MayReturn (loopArray ctx (givenText (props.getD "array"))) found)
      (items : ExpandsItems isBuilding children
        (itemContext ctx (givenText (props.getD "array")) found (props.getD "item_var")) 0
        (found.items?.getD []) tokens) :
      Expands isBuilding ctx (.element (.helper .each) props children) tokens
  | val {ctx : Context} {props : Mapping} {children : List Value} {shown : Value}
      {tokens : List Token}
      (looked : MayReturn (shownValue ctx (props.getD "name") (props.getD "value")) shown)
      (node : Expands isBuilding ctx shown tokens) :
      Expands isBuilding ctx (.element (.helper .val) props children) tokens

/-- The expansion of some nodes, one after the other. -/
inductive ExpandsAll (isBuilding : Bool) : Context → List Value → List Token → Prop
  | nil {ctx : Context} : ExpandsAll isBuilding ctx [] []
  | cons {ctx : Context} {v : Value} {rest : List Value} {tokens more : List Token}
      (node : Expands isBuilding ctx v tokens) (all : ExpandsAll isBuilding ctx rest more) :
      ExpandsAll isBuilding ctx (v :: rest) (tokens ++ more)

/-- The expansion of the body of a loop for the items from a position on. -/
inductive ExpandsItems (isBuilding : Bool) :
    List Value → (ℕ → Context) → ℕ → List Value → List Token → Prop
  | nil {children : List Value} {scope : ℕ → Context} {position : ℕ} :
      ExpandsItems isBuilding children scope position [] []
  | cons {children trees : List Value} {scope : ℕ → Context} {position : ℕ} {item : Value}
      {rest : List Value} {tokens more : List Token}
      (body : MayReturn (bodyFor isBuilding children item position) trees)
      (all : ExpandsAll isBuilding (scope position) trees tokens)
      (items : ExpandsItems isBuilding children scope (position + 1) rest more) :
      ExpandsItems isBuilding children scope position (item :: rest) (tokens ++ more)

end

/-! ### Contexts -/

/-- A context of tame data, in a loop over a tame array. -/
structure Context.IsTame (ctx : Context) : Prop where
  data : ctx.data.IsTame
  array : ∀ l ∈ ctx.loop, l.array.IsTame
  itemVar : ∀ l ∈ ctx.loop, l.itemVar.IsTame

namespace Context.IsTame

variable {ctx : Context}

/-- Everything in a tame context is tame. -/
theorem every (h : ctx.IsTame) : ctx.Every Value.IsTame := ⟨h.data, h.array, h.itemVar⟩

/-- What a given path leads to in tame data is tame. -/
theorem resolveGiven {path data found : Value} (hdata : data.IsTame)
    (h : MayReturn (resolveGiven path data) found) : found.IsTame := by
  unfold Render.resolveGiven at h
  split at h
  · exact hdata.lookup (mayReturn_liftM.mp h)
  · obtain ⟨steps, -, h⟩ := exists_of_mayReturn_bind h
    exact hdata.walk (mayReturn_liftM.mp h)

/-- What a reference shows is tame. -/
theorem shownValue (h : ctx.IsTame) {name value shown : Value} (hvalue : value.IsTame)
    (hshown : MayReturn (shownValue ctx name value) shown) : shown.IsTame := by
  unfold Render.shownValue at hshown
  split at hshown
  · next l hloop =>
    obtain ⟨item, hitem, hshown⟩ := exists_of_mayReturn_bind hshown
    obtain ⟨relative, -, hshown⟩ := exists_of_mayReturn_bind hshown
    have htame := Context.Every.current Value.hereditary_isTame (h.array l hloop) (mayReturn_liftM.mp hitem)
    split at hshown
    · rwa [eq_of_mayReturn_pure hshown]
    · exact htame.lookup (mayReturn_liftM.mp hshown)
  · split at hshown
    · split at hshown
      · exact resolveGiven h.data hshown
      · rw [eq_of_mayReturn_pure hshown]
        exact .absent
    · rwa [eq_of_mayReturn_pure hshown]

/-- The array of a loop is tame. -/
theorem loopArray (h : ctx.IsTame) {array found : Value}
    (hfound : MayReturn (loopArray ctx array) found) : found.IsTame := by
  unfold Render.loopArray at hfound
  obtain ⟨data, hdata, hfound⟩ := exists_of_mayReturn_bind hfound
  obtain ⟨holds, -, hfound⟩ := exists_of_mayReturn_bind hfound
  split at hfound
  · exact resolveGiven (h.every.scopedData Value.hereditary_isTame (mayReturn_liftM.mp hdata)) hfound
  · rw [eq_of_mayReturn_pure hfound]
    exact .absent

end Context.IsTame

/-! ### What work shows -/

/-- Work shows an expansion if every text it may return is that of such an expansion, and all names
in the expansion are made of the letters of names. -/
def ShowsTokens (expansion : List Token → Prop) (x : Pass Text) : Prop :=
  ∀ text, MayReturn x text → ∃ tokens, expansion tokens ∧ text = tokens.flatMap Token.written ∧
    ∀ token ∈ tokens, token.IsNamed

section ShowsTokens

variable {isBuilding : Bool} {ctx : Context} {v : Value} {rest : List Value} {x y : Pass Text}
  {p q : List Token → Prop}

/-- What is shown may be described less exactly. -/
theorem ShowsTokens.imp (h : ShowsTokens p x) (hpq : ∀ tokens, p tokens → q tokens) :
    ShowsTokens q x := by
  intro text htext
  obtain ⟨tokens, hp, hwritten, hnamed⟩ := h text htext
  exact ⟨tokens, hpq tokens hp, hwritten, hnamed⟩

/-- A text that is written by named tokens shows them. -/
theorem shows_pure {tokens : List Token} (hp : p tokens) (hnamed : ∀ token ∈ tokens, token.IsNamed)
    {text : Text} (htext : text = tokens.flatMap Token.written) :
    ShowsTokens p (pure text) := fun _ h =>
  ⟨tokens, hp, (eq_of_mayReturn_pure h).trans htext, hnamed⟩

/-- Two pieces of work, one after the other, show two expansions, one after the other. -/
theorem ShowsTokens.append {r : List Token → Prop} (hx : ShowsTokens p x) (hy : ShowsTokens q y)
    (happend : ∀ first last, p first → q last → r (first ++ last)) :
    ShowsTokens r (do let t ← x; pure (t ++ (← y))) := by
  intro text h
  obtain ⟨t, ht, h⟩ := exists_of_mayReturn_bind h
  obtain ⟨u, hu, h⟩ := exists_of_mayReturn_bind h
  obtain ⟨first, hp, rfl, hfirst⟩ := hx t ht
  obtain ⟨last, hq, rfl, hlast⟩ := hy u hu
  refine ⟨first ++ last, happend first last hp hq, ?_, ?_⟩
  · rw [eq_of_mayReturn_pure h, List.flatMap_append]
  · exact List.forall_mem_append.mpr ⟨hfirst, hlast⟩

theorem shows_throw {failure : Failure} : ShowsTokens p (throw failure) := fun _ h =>
  absurd h not_mayReturn_throw

/-- **Tags.** An element of a tag shows what is inside it between its tags. -/
theorem shows_renderTag {tag : String} (htag : ∀ c ∈ tag.toList, isNameLetter c = true)
    {props : Mapping} (hprops : ArePlain props) {children : List Value}
    (hx : ShowsTokens (ExpandsAll isBuilding ctx children) x) :
    ShowsTokens (Expands isBuilding ctx (.element (.str tag) props children))
      (renderTag tag props x) := by
  intro text h
  have hnamed : (Token.start tag (attributesOf props)).IsNamed := hprops.isNamed htag
  unfold renderTag at h
  obtain ⟨opening, hopening, h⟩ := exists_of_mayReturn_bind h
  have hopening := eq_of_startTag (mayReturn_liftM.mp hopening)
  split at h
  · next hvoid =>
    refine ⟨_, .void hvoid, ?_, List.forall_mem_singleton.mpr hnamed⟩
    simp [eq_of_mayReturn_pure h, hopening]
  · next hvoid =>
    rw [hprops.innerMarkup?] at h
    obtain ⟨inner, hinner, h⟩ := exists_of_mayReturn_bind h
    obtain ⟨tokens, hall, rfl, htokens⟩ := hx inner hinner
    have hvoid : isVoid tag = false := by simpa using hvoid
    refine ⟨_, .tag hvoid hall, ?_, ?_⟩
    · simp [eq_of_mayReturn_pure h, hopening, endTag_eq_written hvoid]
    · exact List.forall_mem_append.mpr
        ⟨List.forall_mem_cons.mpr ⟨hnamed, htokens⟩, List.forall_mem_singleton.mpr htag⟩

end ShowsTokens

/-! ### Parts -/

section Parts

variable {isBuilding : Bool} {onward : Context → Value → Pass Text} {ctx : Context}

/-- A flat child whose rendering shows its expansion. -/
def Part.IsFaithful (isBuilding : Bool) (part : Part) : Prop :=
  part.node.IsTame ∧
    ∀ ctx, ctx.IsTame → ShowsTokens (Expands isBuilding ctx part.node) (part.render ctx)

/-- Work that reads children together with their renderings as other work reads the children alone.
-/
def Pairs (isBuilding : Bool) (x : Pass (List Part)) (y : Pass (List Value)) : Prop :=
  ∀ session ps session', x session = .ok (ps, session') →
    y session = .ok (ps.map Part.node, session') ∧ ∀ part ∈ ps, part.IsFaithful isBuilding

theorem pairs_pure {ps : List Part} (h : ∀ part ∈ ps, part.IsFaithful isBuilding)
    {flat : List Value} (hflat : flat = ps.map Part.node) :
    Pairs isBuilding (pure ps) (pure flat) := by
  intro session ps' session' hps
  obtain ⟨rfl, rfl⟩ := Prod.mk.inj (Except.ok.inj hps)
  exact ⟨by rw [hflat]; rfl, h⟩

/-- Work that goes on in pairs gives pairs. -/
theorem Pairs.bind {α : Type} {x : Pass α} {f : α → Pass (List Part)} {g : α → Pass (List Value)}
    (h : ∀ a, Pairs isBuilding (f a) (g a)) : Pairs isBuilding (x >>= f) (x >>= g) := by
  intro session ps session' hps
  obtain ⟨a, middle, hx, hf⟩ := exists_of_bind hps
  obtain ⟨hg, hfaithful⟩ := h a middle ps session' hf
  refine ⟨?_, hfaithful⟩
  simp only [Bind.bind, StateT.bind, hx]
  exact hg

/-- Pairs side by side are pairs. -/
theorem Pairs.append {x y : Pass (List Part)} {x' y' : Pass (List Value)}
    (hx : Pairs isBuilding x x') (hy : Pairs isBuilding y y') :
    Pairs isBuilding (do let here ← x; pure (here ++ (← y)))
      (do let here ← x'; pure (here ++ (← y'))) := by
  intro session ps session' hps
  obtain ⟨here, middle, hhere, hps⟩ := exists_of_bind hps
  obtain ⟨more, last, hmore, hps⟩ := exists_of_bind hps
  obtain ⟨rfl, rfl⟩ := Prod.mk.inj (Except.ok.inj hps)
  obtain ⟨hhere', hfirst⟩ := hx session here middle hhere
  obtain ⟨hmore', hrest⟩ := hy middle more last hmore
  refine ⟨?_, List.forall_mem_append.mpr ⟨hfirst, hrest⟩⟩
  simp only [Bind.bind, StateT.bind, Except.bind, hhere', hmore', List.map_append]
  rfl

/-- Faithful parts show what their nodes expand to. -/
theorem shows_renderParts (hctx : ctx.IsTame) {ps : List Part}
    (h : ∀ part ∈ ps, part.IsFaithful isBuilding) :
    ShowsTokens (ExpandsAll isBuilding ctx (ps.map Part.node)) (renderParts ctx ps) := by
  induction ps with
  | nil => exact shows_pure .nil (List.forall_mem_nil _) rfl
  | cons part rest ih =>
    obtain ⟨hpart, hrest⟩ := List.forall_mem_cons.mp h
    exact (hpart.2 ctx hctx).append (ih hrest) fun _ _ => .cons

/-- Parts are split where their nodes are. -/
theorem splitElse_map_node (ps : List Part) :
    Element.splitElse (ps.map Part.node) =
      ((splitParts ps).1.map Part.node, (splitParts ps).2.1.map Part.node,
        (splitParts ps).2.2.map Part.node) := by
  induction ps with
  | nil => rfl
  | cons part rest ih =>
    rw [List.map_cons, Element.splitElse, splitParts]
    split
    · rfl
    · rw [ih]
      rfl

/-- Splitting at the alternative keeps the parts and adds none. -/
theorem mem_of_splitParts (ps : List Part) :
    (∀ part ∈ (splitParts ps).1 ++ (splitParts ps).2.2, part ∈ ps) ∧
      ∀ part ∈ (splitParts ps).2.1, part ∈ ps := by
  induction ps with
  | nil => exact ⟨nofun, nofun⟩
  | cons part rest ih =>
    rw [splitParts]
    split
    · simpa using fun other hother => .inr hother
    · obtain ⟨haround, hregion⟩ := ih
      refine ⟨fun other hother => ?_, fun other hother =>
        List.mem_cons_of_mem _ (hregion other hother)⟩
      rcases List.mem_cons.mp hother with rfl | hother
      · exact List.mem_cons_self
      · exact List.mem_cons_of_mem _ (haround other hother)

/-- **Branches.** A branch shows the expansion of the flat children in it. -/
theorem shows_renderBranch (hctx : ctx.IsTame) {ps : List Part}
    (h : ∀ part ∈ ps, part.IsFaithful isBuilding) (holds : Bool) :
    ShowsTokens (ExpandsAll isBuilding ctx (branch holds (ps.map Part.node)))
      (renderBranch ctx holds ps) := by
  obtain ⟨haround, hregion⟩ := mem_of_splitParts ps
  unfold renderBranch branch
  rw [splitElse_map_node]
  generalize splitParts ps = split at haround hregion
  obtain ⟨before, region, after⟩ := split
  dsimp only
  cases holds with
  | true =>
    rw [if_pos rfl, if_pos rfl, ← List.map_append]
    exact shows_renderParts hctx fun part hpart => h part (haround part hpart)
  | false =>
    rw [if_neg Bool.false_ne_true, if_neg Bool.false_ne_true]
    cases region with
    | none => exact shows_pure .nil (List.forall_mem_nil _) rfl
    | some part =>
      refine ((h part (hregion part rfl)).2 ctx hctx).imp fun tokens hpart => ?_
      simpa using ExpandsAll.cons hpart .nil

end Parts

/-! ### Nodes -/

section Nodes

variable {isBuilding : Bool} {onward : Context → Value → Pass Text} {ctx : Context}
  {items : List Value}

/-- A node whose renderings show its expansion, whether it is rendered where it is read or later. -/
structure IsRendered (isBuilding : Bool) (onward : Context → Value → Pass Text) (v : Value) :
    Prop where
  node : ∀ ctx, ctx.IsTame →
    ShowsTokens (Expands isBuilding ctx v) (renderNode ⟨.preview, isBuilding⟩ onward v ctx)
  pairs : Pairs isBuilding (partsOf ⟨.preview, isBuilding⟩ onward v) (Element.flattenOne v)

/-- Nodes one behind the other show what they expand to. -/
theorem shows_renderAll (h : ∀ v ∈ items, IsRendered isBuilding onward v) (hctx : ctx.IsTame) :
    ShowsTokens (ExpandsAll isBuilding ctx items)
      (renderAll ⟨.preview, isBuilding⟩ onward items ctx) := by
  induction items with
  | nil =>
    simp only [renderAll]
    exact shows_pure .nil (List.forall_mem_nil _) rfl
  | cons v rest ih =>
    obtain ⟨hv, hrest⟩ := List.forall_mem_cons.mp h
    simp only [renderAll]
    exact (hv.node ctx hctx).append (ih hrest) fun _ _ => .cons

/-- The items that a generator has left show what they expand to. -/
theorem shows_renderFrom (h : ∀ v ∈ items, IsRendered isBuilding onward v) (hctx : ctx.IsTame)
    (id position : ℕ) :
    ShowsTokens (fun tokens => ∃ left, left.Sublist items ∧ ExpandsAll isBuilding ctx left tokens)
      (renderFrom ⟨.preview, isBuilding⟩ onward id position items ctx) := by
  induction items generalizing position with
  | nil =>
    simp only [renderFrom]
    exact shows_pure ⟨[], .refl _, .nil⟩ (List.forall_mem_nil _) rfl
  | cons v rest ih =>
    obtain ⟨hv, hrest⟩ := List.forall_mem_cons.mp h
    simp only [renderFrom]
    intro text htext
    obtain ⟨isLeft, -, htext⟩ := exists_of_mayReturn_bind htext
    cases isLeft with
    | true =>
      refine (hv.node ctx hctx).append (ih hrest (position + 1)) ?_ text htext
      rintro first last hfirst ⟨left, hleft, hlast⟩
      exact ⟨v :: left, hleft.cons_cons v, .cons hfirst hlast⟩
    | false =>
      have hnone : ShowsTokens ([] = ·) (pure []) := shows_pure rfl (List.forall_mem_nil _) rfl
      refine hnone.append (ih hrest (position + 1)) ?_ text htext
      rintro first last rfl ⟨left, hleft, hlast⟩
      exact ⟨left, hleft.cons v, hlast⟩

/-- The parts of nodes have the flattened nodes for their nodes. -/
theorem pairs_parts (h : ∀ v ∈ items, IsRendered isBuilding onward v) :
    Pairs isBuilding (parts ⟨.preview, isBuilding⟩ onward items) (Element.flatten items) := by
  induction items with
  | nil =>
    simp only [parts, Element.flatten]
    exact pairs_pure (List.forall_mem_nil _) rfl
  | cons v rest ih =>
    obtain ⟨hv, hrest⟩ := List.forall_mem_cons.mp h
    simp only [parts, Element.flatten]
    exact hv.pairs.append (ih hrest)

/-- So have the parts of what a generator has left. -/
theorem pairs_partsFrom (h : ∀ v ∈ items, IsRendered isBuilding onward v) (id position : ℕ) :
    Pairs isBuilding (partsFrom ⟨.preview, isBuilding⟩ onward id position items)
      (Element.flattenFrom id position items) := by
  induction items generalizing position with
  | nil =>
    simp only [partsFrom, Element.flattenFrom]
    exact pairs_pure (List.forall_mem_nil _) rfl
  | cons v rest ih =>
    obtain ⟨hv, hrest⟩ := List.forall_mem_cons.mp h
    simp only [partsFrom, Element.flattenFrom]
    refine .bind fun isLeft => ?_
    cases isLeft with
    | true => exact hv.pairs.append (ih hrest (position + 1))
    | false => exact (pairs_pure (List.forall_mem_nil _) rfl).append (ih hrest (position + 1))

/-! ### Conditionals and loops -/

/-- A conditional shows what it expands to. -/
theorem shows_renderIf (hctx : ctx.IsTame) {props : Mapping} {children : List Value}
    {ps : List Part} (hflat : MayReturn (Element.flatten children) (ps.map Part.node))
    (h : ∀ part ∈ ps, part.IsFaithful isBuilding) :
    ShowsTokens (Expands isBuilding ctx (.element (.helper .ifThen) props children))
      (renderIf ⟨.preview, isBuilding⟩ ctx (props.getD "condition") ps) := by
  unfold renderIf
  split
  · next hnone =>
    refine (shows_renderBranch hctx h _).imp fun tokens => .ifThen hflat ?_
    simp [decision, hnone]
    rfl
  · next condition hsome =>
    intro text htext
    obtain ⟨data, hdata, htext⟩ := exists_of_mayReturn_bind htext
    obtain ⟨holds, hholds, htext⟩ := exists_of_mayReturn_bind htext
    have hdecided : decision ctx (props.getD "condition") = .ok holds := by
      rw [decision, hsome, mayReturn_liftM.mp hdata]
      exact mayReturn_liftM.mp hholds
    exact (shows_renderBranch hctx h holds).imp (fun tokens => .ifThen hflat hdecided) text htext

section BodyFor

variable {children flat : List Value} {item child v : Value} {index : ℕ}
  {session middle last : Session}

/-- A body that calls nothing is shown as it is for every item. -/
private theorem mayReturn_bodyFor (hflat : Element.flatten children session = .ok (flat, middle))
    (hplain : ∀ child, flat = [child] → child.isClosure = false) :
    MayReturn (bodyFor isBuilding children item index) flat := by
  refine ⟨session, middle, ?_⟩
  simp only [bodyFor, Bind.bind, StateT.bind, hflat, Except.bind]
  split
  · next child => rw [hplain child rfl]; rfl
  · rfl

/-- A body that is a component is called for every item. -/
private theorem mayReturn_bodyFor_call
    (hflat : Element.flatten children session = .ok ([child], middle))
    (hclosure : child.isClosure = true)
    (hcall : callItem isBuilding child item index middle = .ok (v, last)) :
    MayReturn (bodyFor isBuilding children item index) [v] := by
  refine ⟨session, last, ?_⟩
  simp only [bodyFor, Bind.bind, StateT.bind, hflat, Except.bind, hclosure, if_true, hcall]
  rfl

end BodyFor

variable (honward : ∀ ctx v, ctx.IsTame → v.IsTame →
  ShowsTokens (Expands isBuilding ctx v) (onward ctx v))

include honward in
/-- The body of a loop shows, for an item, the trees that it is for this item. -/
theorem shows_renderBody {children : List Value} {body : Pass (List Part)}
    (hbody : Pairs isBuilding body (Element.flatten children)) (hctx : ctx.IsTame) {item : Value}
    (hitem : item.IsTame) (index : ℕ) :
    ShowsTokens (fun tokens => ∃ trees, MayReturn (bodyFor isBuilding children item index) trees ∧
        ExpandsAll isBuilding ctx trees tokens)
      (renderBody ⟨.preview, isBuilding⟩ onward body ctx item index) := by
  rintro text ⟨session, session', htext⟩
  unfold renderBody at htext
  obtain ⟨ps, middle, hps, htext⟩ := exists_of_bind htext
  obtain ⟨hflat, hfaithful⟩ := hbody session ps middle hps
  -- unless it is a single function, the body is the same for every item
  have plain : (∀ child, ps.map Part.node = [child] → child.isClosure = false) →
      renderParts ctx ps middle = .ok (text, session') → ∃ tokens,
        (∃ trees, MayReturn (bodyFor isBuilding children item index) trees ∧
          ExpandsAll isBuilding ctx trees tokens) ∧
        text = tokens.flatMap Token.written ∧ ∀ token ∈ tokens, token.IsNamed := fun hplain htext =>
    (shows_renderParts hctx hfaithful).imp
      (fun tokens hall => ⟨_, mayReturn_bodyFor hflat hplain, hall⟩) text ⟨middle, session', htext⟩
  split at htext
  · next part =>
    split at htext
    · next hclosure =>
      obtain ⟨v, last, hcall, htext⟩ := exists_of_bind htext
      have hv := isTame_callItem (hfaithful part (by simp)).1 hitem ⟨middle, last, hcall⟩
      refine (honward ctx v hctx hv).imp (fun tokens hnode => ?_) text ⟨last, session', htext⟩
      refine ⟨[v], mayReturn_bodyFor_call hflat hclosure hcall, ?_⟩
      simpa using ExpandsAll.cons hnode .nil
    · next hclosure => exact plain (fun child hchild => by simp_all) htext
  · next hnot =>
    refine plain (fun child hchild => ?_) htext
    obtain ⟨part, rfl, -⟩ := List.map_eq_singleton_iff.mp hchild
    exact absurd rfl (hnot part)

include honward in
/-- A loop shows its body for every item. -/
theorem shows_renderItems {children : List Value} {body : Pass (List Part)}
    (hbody : Pairs isBuilding body (Element.flatten children)) {scope : ℕ → Context}
    (hscope : ∀ i, (scope i).IsTame) (hitems : ∀ item ∈ items, item.IsTame) (position : ℕ) :
    ShowsTokens (ExpandsItems isBuilding children scope position items)
      (renderItems (renderBody ⟨.preview, isBuilding⟩ onward body) scope position items) := by
  induction items generalizing position with
  | nil => exact shows_pure .nil (List.forall_mem_nil _) rfl
  | cons item rest ih =>
    obtain ⟨hitem, hrest⟩ := List.forall_mem_cons.mp hitems
    refine (shows_renderBody honward hbody (hscope position) hitem position).append
      (ih hrest (position + 1)) ?_
    rintro first last ⟨trees, htrees, hall⟩ hlast
    exact .cons htrees hall hlast

include honward in
/-- **Loops.** A loop shows the expansion of its body for every item. -/
theorem shows_previewEach {props : Mapping} {children : List Value} {body : Pass (List Part)}
    (hbody : Pairs isBuilding body (Element.flatten children)) (hctx : ctx.IsTame)
    (hitemVar : (props.getD "item_var").IsTame) :
    ShowsTokens (Expands isBuilding ctx (.element (.helper .each) props children))
      (previewEach (renderBody ⟨.preview, isBuilding⟩ onward body) ctx
        (givenText (props.getD "array")) (props.getD "item_var")) := by
  intro text htext
  unfold previewEach at htext
  obtain ⟨data, hdata, htext⟩ := exists_of_mayReturn_bind htext
  obtain ⟨holds, hholds, htext⟩ := exists_of_mayReturn_bind htext
  have hdata := mayReturn_liftM.mp hdata
  have hholds := mayReturn_liftM.mp hholds
  -- what is known of the data and of the truth of the array leaves one branch of `loopArray`
  have harray : loopArray ctx (givenText (props.getD "array")) =
      if holds then resolveGiven (givenText (props.getD "array")) data else pure .absent := by
    unfold loopArray
    rw [hdata]
    change (do
      let holds ← (liftM (Condition.evaluate (givenText (props.getD "array")) data) : Pass Bool)
      if holds then resolveGiven (givenText (props.getD "array")) data else pure .absent) = _
    rw [hholds]
    rfl
  cases holds with
  | false =>
    have hfound : MayReturn (loopArray ctx (givenText (props.getD "array"))) .absent := by
      rw [harray]
      exact ⟨{}, {}, rfl⟩
    exact shows_pure (.each hfound .nil) (List.forall_mem_nil _) rfl text htext
  | true =>
    obtain ⟨found, hfound, htext⟩ := exists_of_mayReturn_bind htext
    have hfound : MayReturn (loopArray ctx (givenText (props.getD "array"))) found := by
      rwa [harray]
    split at htext
    · next items hitems =>
      have htame := hctx.loopArray hfound
      refine (shows_renderItems honward hbody (fun i => ?_) (htame.items hitems) 0).imp
        (fun tokens hall => .each hfound ?_) text htext
      · exact ⟨hctx.data, by simpa using htame, by simpa using hitemVar⟩
      · rw [hitems]
        exact hall
    · next hitems =>
      refine shows_pure (.each hfound ?_) (List.forall_mem_nil _) rfl text htext
      rw [hitems]
      exact .nil

include honward in
/-- **References.** A reference shows the expansion of what it refers to. -/
theorem shows_previewVal {props : Mapping} {children : List Value} (hctx : ctx.IsTame)
    (hvalue : (props.getD "value").IsTame) :
    ShowsTokens (Expands isBuilding ctx (.element (.helper .val) props children))
      (previewVal onward ctx (props.getD "name") (props.getD "value")) := by
  intro text htext
  unfold previewVal at htext
  obtain ⟨shown, hshown, htext⟩ := exists_of_mayReturn_bind htext
  split at htext
  · next hnothing =>
    refine shows_pure (.val hshown (.nothing ?_)) (List.forall_mem_nil _) rfl text htext
    cases shown <;> first | rfl | cases hnothing
  · have htame := hctx.shownValue hvalue hshown
    exact (honward ctx shown hctx htame).imp (fun tokens => .val hshown) text htext

/-- A node that is one flat child by itself, rendered later. -/
private def IsSingle (isBuilding : Bool) (onward : Context → Value → Pass Text) (v : Value) :
    Prop :=
  partsOf ⟨.preview, isBuilding⟩ onward v =
      pure [⟨v, renderNode ⟨.preview, isBuilding⟩ onward v⟩] ∧
    Element.flattenOne v = pure [v]

private theorem IsSingle.isRendered {v : Value} (h : IsSingle isBuilding onward v) (hv : v.IsTame)
    (hnode : ∀ ctx, ctx.IsTame →
      ShowsTokens (Expands isBuilding ctx v) (renderNode ⟨.preview, isBuilding⟩ onward v ctx)) :
    IsRendered isBuilding onward v where
  node := hnode
  pairs := by
    rw [h.1, h.2]
    exact pairs_pure (List.forall_mem_singleton.mpr ⟨hv, hnode⟩) rfl

private theorem isSingle_of_isShownAsText {v : Value} (h : isShownAsText v = true) :
    IsSingle isBuilding onward v := by
  cases v with
  | int | float | str | bytes | fragmentType | helper | set | date | moment | object =>
    exact ⟨by simp only [partsOf], by simp only [Element.flattenOne]⟩
  | _ => cases h

/-- A value that is shown as a text is rendered by its escaped display. -/
private theorem isRendered_of_isShownAsText {v : Value} (hv : v.IsTame)
    (hshown : isShownAsText v = true)
    (hnode : ∀ ctx, renderNode ⟨.preview, isBuilding⟩ onward v ctx = pure (escape v.display)) :
    IsRendered isBuilding onward v := by
  refine (isSingle_of_isShownAsText hshown).isRendered hv fun ctx _ => ?_
  have hnamed : ∀ token ∈ [Token.text v.display], token.IsNamed :=
    List.forall_mem_singleton.mpr trivial
  rw [hnode ctx]
  exact shows_pure (.text hshown) hnamed (by simp [Token.written])

include honward in
/-- The constructs of the template language are rendered as what they decide, repeat or refer to. -/
private theorem shows_helper (kind : Helper) {props : Mapping} {children : List Value}
    (hctx : ctx.IsTame) (hprops : props.IsTame)
    (hchildren : ∀ child ∈ children, IsRendered isBuilding onward child) :
    ShowsTokens (Expands isBuilding ctx (.element (.helper kind) props children))
      (renderNode ⟨.preview, isBuilding⟩ onward (.element (.helper kind) props children) ctx) := by
  cases kind with
  | ifThen =>
    simp only [renderNode]
    rintro text ⟨session, session', htext⟩
    obtain ⟨ps, middle, hps, htext⟩ := exists_of_bind htext
    obtain ⟨hflat, hfaithful⟩ := pairs_parts hchildren session ps middle hps
    exact shows_renderIf hctx ⟨session, middle, hflat⟩ hfaithful text ⟨middle, session', htext⟩
  | otherwise =>
    simp only [renderNode]
    exact (shows_renderAll hchildren hctx).imp fun _ => .otherwise
  | each =>
    simp only [renderNode]
    exact shows_previewEach honward (pairs_parts hchildren) hctx (hprops.getD "item_var")
  | val =>
    simp only [renderNode]
    exact shows_previewVal honward hctx (hprops.getD "value")
  | provider =>
    simp only [renderNode]
    have hinside : ({ ctx with data := Mapping.getD "data" props } : Context).IsTame :=
      ⟨hprops.getD "data", hctx.array, hctx.itemVar⟩
    exact (shows_renderAll hchildren hinside).imp fun _ => .provider

include honward in
/-- **Elements.** Rendering a tame element shows its expansion, where rendering a child does. -/
private theorem shows_element {type : Value} {props : Mapping} {children : List Value}
    (h : (Value.element type props children).IsTame) (hctx : ctx.IsTame)
    (hchildren : ∀ child ∈ children, IsRendered isBuilding onward child) :
    ShowsTokens (Expands isBuilding ctx (.element type props children))
      (renderNode ⟨.preview, isBuilding⟩ onward (.element type props children) ctx) := by
  cases h with
  | element _ _ _ names isTameType isTameKey isTameValue isTame =>
    have hprops : Mapping.IsTame props := fun entry hentry =>
      ⟨isTameKey entry hentry, isTameValue entry hentry⟩
    cases type with
    | str tag =>
      obtain ⟨htag, hplain⟩ := names tag rfl
      simp only [renderNode]
      exact shows_renderTag htag hplain (shows_renderAll hchildren hctx)
    | fragmentType =>
      simp only [renderNode]
      exact (shows_renderAll hchildren hctx).imp fun _ => .fragment
    | closure name scope body traits =>
      simp only [renderNode]
      intro text htext
      obtain ⟨v, hcall, htext⟩ := exists_of_mayReturn_bind htext
      have hv := isTame_call isTameType (isTame_withChildren hprops isTame) hcall
      exact (honward ctx v hctx hv).imp (fun tokens => .component hcall) text htext
    | helper kind => exact shows_helper honward kind hctx hprops hchildren
    | raw => cases isTameType
    | _ =>
      simp only [renderNode]
      exact shows_throw

include honward in
/-- **Nodes.** Rendering a tame node shows its expansion. -/
theorem isRendered_of_isTame {v : Value} (h : v.IsTame) : IsRendered isBuilding onward v := by
  -- the induction reaches what is inside the node; what is found or returned goes to `onward`
  induction h with
  | null | bool =>
    refine ⟨fun ctx _ => ?_, ?_⟩
    · simp only [renderNode]
      exact shows_pure (.nothing rfl) (List.forall_mem_nil _) rfl
    · simp only [partsOf, Element.flattenOne]
      exact pairs_pure (List.forall_mem_nil _) rfl
  | absent =>
    have hsingle : IsSingle isBuilding onward .absent :=
      ⟨by simp only [partsOf], by simp only [Element.flattenOne]⟩
    refine hsingle.isRendered .absent fun ctx _ => ?_
    simp only [renderNode]
    exact shows_pure (.nothing rfl) (List.forall_mem_nil _) rfl
  | int | float | str | bytes | fragmentType | helper | date | moment =>
    exact isRendered_of_isShownAsText (by constructor) rfl fun ctx => by
      simp only [renderNode, escapeText]
  | set items isTame =>
    exact isRendered_of_isShownAsText (.set items isTame) rfl fun ctx => by
      simp only [renderNode, escapeText]
  | object attributes isTame unmarked =>
    have hshown : isShownAsText (.object attributes) = true := by simp [isShownAsText, unmarked]
    refine isRendered_of_isShownAsText (.object attributes isTame unmarked) hshown fun ctx => ?_
    simp only [renderNode, unmarked, escapeText]
    rfl
  | list items _ ih =>
    refine ⟨fun ctx hctx => ?_, ?_⟩
    · simp only [renderNode]
      exact (shows_renderAll ih hctx).imp fun _ => .list
    · simp only [partsOf, Element.flattenOne]
      exact pairs_parts ih
  | tuple items _ ih =>
    refine ⟨fun ctx hctx => ?_, ?_⟩
    · simp only [renderNode]
      exact (shows_renderAll ih hctx).imp fun _ => .tuple
    · simp only [partsOf, Element.flattenOne]
      exact pairs_parts ih
  | generator id items _ ih =>
    refine ⟨fun ctx hctx => ?_, ?_⟩
    · simp only [renderNode]
      refine (shows_renderFrom ih hctx id 0).imp ?_
      rintro tokens ⟨left, hleft, hall⟩
      exact .generator hleft hall
    · simp only [partsOf, Element.flattenOne]
      exact pairs_partsFrom ih id 0
  | map entries isTame isTameValue =>
    have hsingle : IsSingle isBuilding onward (.map entries) :=
      ⟨by simp only [partsOf], by simp only [Element.flattenOne]⟩
    refine hsingle.isRendered (.map entries isTame isTameValue) fun ctx _ => ?_
    simp only [renderNode]
    exact shows_throw
  | closure name scope body traits isTameScope isTameBody isTame =>
    have hsingle : IsSingle isBuilding onward (.closure name scope body traits) :=
      ⟨by simp only [partsOf], by simp only [Element.flattenOne]⟩
    have hv : (Value.closure name scope body traits).IsTame :=
      .closure name scope body traits isTameScope isTameBody isTame
    refine hsingle.isRendered hv fun ctx _ => ?_
    simp only [renderNode]
    exact shows_throw
  | element type props children names isTameType isTameKey isTameValue isTame _ _ _ ih =>
    have hsingle : IsSingle isBuilding onward (.element type props children) :=
      ⟨by simp only [partsOf], by simp only [Element.flattenOne]⟩
    have hv : (Value.element type props children).IsTame :=
      .element type props children names isTameType isTameKey isTameValue isTame
    exact hsingle.isRendered hv fun ctx hctx => shows_element honward hv hctx ih

end Nodes

/-! ### Previews -/

/-- A preview shows the expansion of a tame tree, however deep it goes on in other trees. -/
theorem shows_renderWithin (isBuilding : Bool) (depth : ℕ) {ctx : Context} {v : Value}
    (hctx : ctx.IsTame) (hv : v.IsTame) :
    ShowsTokens (Expands isBuilding ctx v) (renderWithin ⟨.preview, isBuilding⟩ depth ctx v) := by
  induction depth generalizing ctx v with
  | zero => exact shows_throw
  | succ depth ih =>
    exact (isRendered_of_isTame (fun ctx v hctx hv => ih hctx hv) hv).node ctx hctx

/-- **No markup comes of texts.** A preview of a tame tree consists of the tags and texts of the
expansion of the tree, as they are written, and is read back as these: the only angle brackets are
those of the tags, no double quote stands between tags, and decoding a text or the value of an
attribute gives what was to be written there. -/
theorem render_read_back (isBuilding : Bool) {ctx : Context} {v : Value} (hctx : ctx.IsTame)
    (hv : v.IsTame) {session session' : Session} {text : Text}
    (h : render ⟨.preview, isBuilding⟩ ctx v session = .ok (text, session')) :
    ∃ tokens, Expands isBuilding ctx v tokens ∧ text = tokens.flatMap Token.written ∧
      read? text = some (joined tokens) := by
  obtain ⟨tokens, hexpands, rfl, hnamed⟩ :=
    shows_renderWithin isBuilding depthLimit hctx hv text ⟨session, session', h⟩
  exact ⟨tokens, hexpands, rfl, read?_written hnamed⟩

/-- The rows of a list, one of which tries to be markup. -/
def nameRows : List Value := [.map [(.str "name", .str "<b>")], .map [(.str "name", .int 5)]]

/-- A context of these rows. -/
def nameListContext : Context := { data := .map [(.str "rows", .list nameRows)] }

/-- The attributes of a list, which try to be markup. -/
def listProps : Mapping :=
  [(.str "class_name", .str "\">"), (.str "style", .map [(.str "fontSize", .str "1<2")])]

/-- What is shown of a row. -/
def nameRow : Value := .element (.str "li") [] [Element.val (.str "name") .null]

/-- A list of the names of all rows. -/
def nameList : Value := .element (.str "ul") listProps [Element.each (.str "rows") [nameRow] .null]

/-- The start tag of the list. -/
def nameListStart : Text := "<ul class=\"&quot;&gt;\" style=\"font-size:1&lt;2\">".toList

/-- The markup of the list. -/
def nameListText : Text := nameListStart ++ "<li>&lt;b&gt;</li><li>5</li>".toList ++ "</ul>".toList

private theorem renderNode_nameRow {onward : Context → Value → Pass Text} {ctx : Context}
    {v : Value} {t : Text} (hshown : shownValue ctx (.str "name") .null = pure v)
    (hv : v.isNothing = false) (hprint : onward ctx v = pure t) :
    renderNode ⟨.preview, false⟩ onward nameRow ctx =
      pure ("<li>".toList ++ t ++ "</li>".toList) := by
  have hval : renderNode ⟨.preview, false⟩ onward (Element.val (.str "name") .null) ctx =
      pure t := by
    simp only [Element.val, renderNode, previewVal]
    change (do
      let shown ← shownValue ctx (.str "name") .null
      if shown.isNothing then pure [] else onward ctx shown) = _
    rw [hshown, pure_bind, hv]
    exact hprint
  simp only [nameRow, renderNode, renderAll, hval, pure_bind, List.append_nil]
  rfl

private theorem renderNode_nameRows {onward : Context → Value → Pass Text}
    (hfirst : ∀ ctx, onward ctx (.str "<b>") = pure "&lt;b&gt;".toList)
    (hlast : ∀ ctx, onward ctx (.int 5) = pure ['5']) :
    renderNode ⟨.preview, false⟩ onward (Element.each (.str "rows") [nameRow] .null)
        nameListContext =
      pure "<li>&lt;b&gt;</li><li>5</li>".toList := by
  have heach : ∀ body, previewEach body nameListContext (.str "rows") .null =
      renderItems body (itemContext nameListContext (.str "rows") (.list nameRows) .null) 0
        nameRows := fun body => by
    have hdata : nameListContext.scopedData = .ok nameListContext.data := rfl
    have hholds : Condition.evaluate (.str "rows") nameListContext.data = .ok true :=
      (Condition.evaluate_str "rows" rfl).trans rfl
    simp only [previewEach, hdata, liftM_ok, pure_bind, hholds]
    rfl
  have hparts : parts ⟨.preview, false⟩ onward [nameRow] =
      pure [⟨nameRow, renderNode ⟨.preview, false⟩ onward nameRow⟩] := by
    simp only [parts, nameRow, partsOf, pure_bind, List.append_nil]
  simp only [renderNode, Element.each, hparts]
  refine (heach _).trans ?_
  simp only [nameRows, renderItems, renderBody, nameRow, Value.isClosure, renderParts, pure_bind]
  rw [← nameRow, renderNode_nameRow rfl rfl (hfirst _), renderNode_nameRow rfl rfl (hlast _)]
  rfl

private theorem render_nameList :
    render ⟨.preview, false⟩ nameListContext nameList {} = .ok (nameListText, {}) := by
  have hprint : ∀ v,
      (∀ onward ctx, renderNode ⟨.preview, false⟩ onward v ctx = pure (escapeText v)) →
      ∀ ctx, renderWithin ⟨.preview, false⟩ 999 ctx v = pure (escapeText v) := fun v hv ctx =>
    hv _ ctx
  have hinside := renderNode_nameRows
    (hprint (.str "<b>") fun onward ctx => by simp only [renderNode])
    (hprint (.int 5) fun onward ctx => by simp only [renderNode])
  have hstart : startTag "ul" listProps = .ok nameListStart := by rfl
  have htag : ∀ inside : Pass Text, renderTag "ul" listProps inside = (do
      let t ← inside
      pure (nameListStart ++ t ++ "</ul>".toList)) := by
    intro inside
    unfold renderTag
    rw [hstart]
    rfl
  change renderNode ⟨.preview, false⟩ (renderWithin ⟨.preview, false⟩ 999) nameList
    nameListContext {} = _
  rw [nameList]
  simp only [renderNode, renderAll]
  rw [hinside, htag, pure_bind, pure_bind, pure_bind, List.append_nil]
  rfl

/-- The tags and texts of the list. -/
def nameListTokens : List Token :=
  [.start "ul" [("class", "\">".toList), ("style", "font-size:1<2".toList)],
    .start "li" [], .text "<b>".toList, .finish "li",
    .start "li" [], .text ['5'], .finish "li", .finish "ul"]

theorem render_nameList_read_back :
    (nameListContext.IsTame ∧ nameList.IsTame ∧
      render ⟨.preview, false⟩ nameListContext nameList {} = .ok (nameListText, {})) ∧
    ∃ tokens, Expands false nameListContext nameList tokens ∧
      nameListText = tokens.flatMap Token.written ∧
      read? nameListText = some (joined tokens) ∧ joined tokens = nameListTokens := by
  have hctx : nameListContext.IsTame := by
    refine ⟨?_, nofun, nofun⟩
    simp [nameListContext, nameRows, Mapping.IsTame]
  have htame : nameList.IsTame := by
    have hprops : Mapping.IsTame listProps := by simp [listProps, Mapping.IsTame]
    have hval : (Element.val (.str "name") .null).IsTame :=
      Element.isTame_of_untagged nofun (.helper _) (by simp [Mapping.IsTame])
        (List.forall_mem_nil _)
    have hrow : nameRow.IsTame :=
      Element.isTame_of_isPlain (by decide) (by decide) (List.forall_mem_nil _) (by simp [hval])
    have heach : (Element.each (.str "rows") [nameRow] .null).IsTame :=
      Element.isTame_of_untagged nofun (.helper _) (by simp [Mapping.IsTame]) (by simp [hrow])
    exact Element.isTame_of_isPlain (by decide) (by decide) hprops (by simp [heach])
  obtain ⟨tokens, hexpands, hwritten, hread⟩ := render_read_back false hctx htame render_nameList
  have hsample : read? nameListText = some nameListTokens := by decide +kernel
  exact ⟨⟨hctx, htame, render_nameList⟩, tokens, hexpands, hwritten, hread,
    Option.some.inj (hread.symm.trans hsample)⟩

end Stencil.Render
