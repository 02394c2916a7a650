import Stencil.Markup.Tag
import Stencil.Render.Context
import Stencil.Template.Substitution

/-!
# Rendering component trees

`Render.render` turns a node into markup in one of two modes. Everything but the five helper constructs
renders alike in both.

The recursion is on the tree. Where a tree goes on in another one, that is in what a component returns
or in a value that a reference of a preview shows, `renderNode` hands it to its argument `onward`, and
`renderWithin` bounds how often that happens one inside the other.

The regions of a conditional and the body of a loop are read completely before any of it is rendered;
all other children are rendered as they are read. `parts` is the complete reading, each child together
with its rendering.
-/

namespace Stencil.Render

/-- What rendering a whole tree depends on. -/
structure Setting where
  /-- The mode. -/
  mode : Mode := .preview
  /-- Whether components find a template build running. -/
  isBuilding : Bool := false
  deriving DecidableEq

/-- Rendering of one node in a context. -/
abbrev Renderer := Context → Pass Text

/-- A flat child and its rendering. -/
structure Part where
  /-- The child. -/
  node : Value
  /-- Its rendering. -/
  render : Renderer

/-- The texts of some parts, joined. -/
def renderParts (ctx : Context) : List Part → Pass Text
  | [] => pure []
  | part :: rest => do
    let text ← part.render ctx
    pure (text ++ (← renderParts ctx rest))

/-- The parts before the first alternative region, that region, and the parts behind it. -/
def splitParts : List Part → List Part × Option Part × List Part
  | [] => ([], none, [])
  | part :: rest =>
    if part.node.helper? = some .otherwise then ([], some part, rest)
    else
      let (before, region, after) := splitParts rest
      (part :: before, region, after)

/-! ### Helpers in both modes -/

/-- The text of an optional region. -/
def renderRegion (ctx : Context) : Option Part → Pass Text
  | some region => region.render ctx
  | none => pure []

/-- One branch of a conditional. -/
def renderBranch (ctx : Context) (holds : Bool) (parts : List Part) : Pass Text :=
  let (before, region, after) := splitParts parts
  if holds then renderParts ctx (before ++ after) else renderRegion ctx region

/-- A conditional as a pseudo-tag around both branches. -/
def renderIfTag (ctx : Context) (condition : Text) (parts : List Part) : Pass Text := do
  let (before, region, after) := splitParts parts
  let first ← renderParts ctx before
  let middle ←
    match region with
    | some region => do
      let text ← region.render ctx
      pure ("<hb-else>".toList ++ text ++ "</hb-else>".toList)
    | none => pure []
  let last ← renderParts ctx after
  pure ("<hb-if condition=\"".toList ++ Markup.escape condition ++ "\">".toList ++ first ++ middle ++
    last ++ "</hb-if>".toList)

/-- A conditional. A condition that is no text is decided at once in both modes. -/
def renderIf (s : Setting) (ctx : Context) (condition : Value) (parts : List Part) : Pass Text :=
  match condition.text? with
  | none => renderBranch ctx condition.isTruthy parts
  | some text =>
    match s.mode with
    | .preview => do
      let data ← ctx.scopedData
      renderBranch ctx (← Condition.evaluate condition data) parts
    | .markers => renderIfTag ctx text.toList parts

/-- The body of a loop for one item. A single child that is a function is called with the item. -/
def renderBody (s : Setting) (onward : Context → Value → Pass Text) (body : Pass (List Part))
    (ctx : Context) (item : Value) (index : Nat) : Pass Text := do
  match ← body with
  | [part] =>
    if part.node.isClosure then
      onward ctx (← Component.callItem s.isBuilding part.node item index)
    else renderParts ctx [part]
  | parts => renderParts ctx parts

/-- The value at a path that may be given as a text or as its steps. -/
def resolveGiven (path data : Value) : Pass Value := do
  match path.text? with
  | some p => data.lookup p.toList
  | none => data.walk (← Element.iterate path)

/-- A value that counts as given, or the empty text. -/
def givenText (v : Value) : Value := if v.holds then v else .str ""

/-! ### Loops -/

/-- The rendering of the items of an array from a position on. -/
def renderItems (body : Context → Value → Nat → Pass Text) (scope : Nat → Context) :
    (position : Nat) → List Value → Pass Text
  | _, [] => pure []
  | position, item :: rest => do
    let text ← body (scope position) item position
    pure (text ++ (← renderItems body scope (position + 1) rest))

/-- A loop in a preview: its body for each item. -/
def previewEach (body : Context → Value → Nat → Pass Text) (ctx : Context)
    (array itemVar : Value) : Pass Text := do
  let data ← ctx.scopedData
  if ← Condition.evaluate array data then
    let found ← resolveGiven array data
    match found.items? with
    | some items =>
      renderItems body
        (fun index => { ctx with loop := some ⟨array.displayString, found, some index, itemVar⟩ })
        0 items
    | none => pure []
  else pure []

/-- The item that stands for all items of what a path leads to. -/
def representative (found : Value) : Value :=
  match found.items? with
  | some (item :: _) => item
  | _ => .map []

/-- An attribute for the item variable of a loop, if it has one. -/
def itemVarAttribute (itemVar : Value) : Text :=
  if itemVar.holds then " itemVar=\"".toList ++ Markup.escapeAttribute itemVar ++ ['"'] else []

/-- A loop as a pseudo-tag around its body for the item that stands for all items. -/
def markersEach (body : Context → Value → Nat → Pass Text) (ctx : Context)
    (array itemVar : Value) : Pass Text := do
  let data ← ctx.scopedData
  let item := representative (← resolveGiven array data)
  let path ← absolutePath array ctx.loop
  let scope : LoopScope := ⟨path.displayString, .list [item], some 0, itemVar⟩
  let text ← body { ctx with loop := some scope } item 0
  pure ("<hb-each array=\"".toList ++ Markup.escapeAttribute path ++ ['"'] ++
    itemVarAttribute itemVar ++ ['>'] ++ text ++ "</hb-each>".toList)

/-! ### Value references -/

/-- The value that a reference shows in a preview. In a loop the name is a path into the item. -/
def shownValue (ctx : Context) (name value : Value) : Pass Value := do
  match ctx.loop with
  | some loop => do
    let item ← loop.current
    let relative ← loop.relative name
    if relative.isEmpty then pure item else item.lookup relative
  | none =>
    if value.isNull then if name.holds then resolveGiven name ctx.data else pure .absent
    else pure value

/-- A reference in a preview. -/
def previewVal (onward : Context → Value → Pass Text) (ctx : Context) (name value : Value) :
    Pass Text := do
  let shown ← shownValue ctx name value
  if shown.isNothing then pure [] else onward ctx shown

/-- A reference outside loops for a template: the marker token of its path, or the path itself. -/
def nameReference (markers : Option Marker.Registry) (name : Value) : Except Failure Text := do
  if markers.isSome then name.checkKey
  match name.text? with
  | none => throw (.noName name.typeName)
  | some path =>
    match markers.bind (·.tokenFor? path) with
    | some token => pure token.toList
    | none => pure (Template.reference path)

/-- A reference to a part of the current item. -/
def itemReference (relative : Text) : Text :=
  Template.reference
    (String.ofList (if relative.isEmpty then "this".toList else "this.".toList ++ relative))

/-- A reference for a template. Outside loops a value that is given is rendered in its place. -/
def markersVal (ctx : Context) (name value : Value) (rendering : Pass Text) : Pass Text :=
  match ctx.loop with
  | some loop => do pure (itemReference (← loop.relative name))
  | none =>
    if value.isNull then do pure (← nameReference ctx.markers (givenText name))
    else rendering

/-! ### Tags and objects -/

/-- An element of a tag around what is inside it. -/
def renderTag (tag : String) (props : Mapping) (inside : Pass Text) : Pass Text := do
  let opening ← Markup.startTag tag props
  if Markup.isVoid tag then pure opening
  else
    let inner ←
      match Markup.innerMarkup? props with
      | some inner => pure inner
      | none => inside
    pure (opening ++ inner ++ Markup.endTag tag)

/-- The attribute of an object that has to be there. -/
def attributeOf (attributes : List (String × Value)) (name : String) : Except Failure Value :=
  match attributes.lookup name with
  | some v => .ok v
  | none => .error (.noMember (Value.object attributes).typeName name)

/-- The properties of an object that is marked as an element, which have to be a mapping. -/
def propertiesOf (attributes : List (String × Value)) : Except Failure Mapping := do
  match ← attributeOf attributes "props" with
  | .map entries => pure entries
  | v => throw (.noMember v.typeName "items")

/-- What a component in an object that is marked as an element is called with. -/
def argumentsOf (attributes : List (String × Value)) : Pass Mapping := do
  let props ← Element.properties (← attributeOf attributes "props")
  let children ← attributeOf attributes "children"
  if children.holds then pure (Component.withChildren props (← Element.iterate children))
  else pure props

/-! ### Nodes -/

mutual

/-- The rendering of a node; trees that it goes on in are rendered by `onward`. -/
def renderNode (s : Setting) (onward : Context → Value → Pass Text) : Value → Renderer
  | .null, _ | .absent, _ | .bool _, _ => pure []
  | .element type props children, ctx =>
    match type with
    | .helper .ifThen => do
      renderIf s ctx (Mapping.getD "condition" props) (← parts s onward children)
    | .helper .otherwise => renderAll s onward children ctx
    | .helper .each =>
      let body := renderBody s onward (parts s onward children)
      let array := givenText (Mapping.getD "array" props)
      let itemVar := Mapping.getD "item_var" props
      match s.mode with
      | .preview => previewEach body ctx array itemVar
      | .markers => markersEach body ctx array itemVar
    | .helper .val =>
      match s.mode with
      | .preview => previewVal onward ctx (Mapping.getD "name" props) (Mapping.getD "value" props)
      | .markers =>
        have := Mapping.sizeOf_getD_le "value" props
        markersVal ctx (Mapping.getD "name" props) (Mapping.getD "value" props)
          (renderNode s onward (Mapping.getD "value" props) ctx)
    | .helper .provider => renderAll s onward children { ctx with data := Mapping.getD "data" props }
    | .fragmentType => renderAll s onward children ctx
    | .str tag | .raw tag => renderTag tag props (renderAll s onward children ctx)
    | .closure name scope body traits => do
      let component := Value.closure name scope body traits
      onward ctx (← Component.call s.isBuilding component (Component.withChildren props children))
    | other => throw (.invalidType (String.ofList other.inspect))
  | .map entries, _ => throw (.mappingAsChild (entries.map fun entry => entry.1.displayString))
  | .list items, ctx | .tuple items, ctx => renderAll s onward items ctx
  | .generator id items, ctx => renderFrom s onward id 0 items ctx
  | .closure name _ _ _, _ => throw (.closureAsChild name)
  | .object attributes, ctx =>
    if Value.marksElement attributes then do
      match ← attributeOf attributes "type" with
      | .fragmentType => renderAttribute s onward "children" attributes ctx
      | .str tag | .raw tag => do
        renderTag tag (← propertiesOf attributes)
          (renderAttribute s onward "children" attributes ctx)
      | .closure name scope body traits => do
        let component := Value.closure name scope body traits
        onward ctx (← Component.call s.isBuilding component (← argumentsOf attributes))
      | other => throw (.invalidType (String.ofList other.inspect))
    else pure (Markup.escapeText (.object attributes))
  | v, _ => pure (Markup.escapeText v)
termination_by v _ => (sizeOf v, 0)

/-- The rendering of the items of the first attribute of a name. -/
def renderAttribute (s : Setting) (onward : Context → Value → Pass Text) (name : String) :
    List (String × Value) → Renderer
  | [], _ => throw (.noMember (Value.object []).typeName name)
  | (own, v) :: rest, ctx =>
    if own = name then renderInside s onward v ctx else renderAttribute s onward name rest ctx
termination_by vs _ => (sizeOf vs, 0)

/-- The rendering of the items of a value, one after the other. -/
def renderInside (s : Setting) (onward : Context → Value → Pass Text) : Value → Renderer
  | .list items, ctx | .tuple items, ctx | .set items, ctx => renderAll s onward items ctx
  | .generator id items, ctx => renderFrom s onward id 0 items ctx
  | .map entries, ctx => renderKeys s onward entries ctx
  | .str text, _ | .raw text, _ => pure (Markup.escape text.toList)
  | .bytes text, _ => pure (text.toList.flatMap fun c => Decimal.natText c.toNat)
  | v, _ => throw (.noSequence v.typeName)
termination_by v _ => (sizeOf v, 0)

/-- The rendering of the keys of some entries, one after the other. -/
def renderKeys (s : Setting) (onward : Context → Value → Pass Text) :
    List (Value × Value) → Renderer
  | [], _ => pure []
  | (key, _) :: rest, ctx => do
    let text ← renderNode s onward key ctx
    pure (text ++ (← renderKeys s onward rest ctx))
termination_by vs _ => (sizeOf vs, 0)

/-- The rendering of children, one after the other. -/
def renderAll (s : Setting) (onward : Context → Value → Pass Text) : List Value → Renderer
  | [], _ => pure []
  | v :: rest, ctx => do
    let text ← renderNode s onward v ctx
    pure (text ++ (← renderAll s onward rest ctx))
termination_by vs _ => (sizeOf vs, 0)

/-- The rendering of what is left of a generator from a position on. -/
def renderFrom (s : Setting) (onward : Context → Value → Pass Text) (id position : Nat) :
    List Value → Renderer
  | [], _ => pure []
  | v :: rest, ctx => do
    let text ← if ← drawItem id position then renderNode s onward v ctx else pure []
    pure (text ++ (← renderFrom s onward id (position + 1) rest ctx))
termination_by vs _ => (sizeOf vs, 0)

/-- The flat children with their renderings. -/
def parts (s : Setting) (onward : Context → Value → Pass Text) : List Value → Pass (List Part)
  | [] => pure []
  | v :: rest => do
    let here ← partsOf s onward v
    pure (here ++ (← parts s onward rest))
termination_by vs => (sizeOf vs, 0)

/-- What one child contributes. -/
def partsOf (s : Setting) (onward : Context → Value → Pass Text) : Value → Pass (List Part)
  | .null | .bool _ => pure []
  | .list items | .tuple items => parts s onward items
  | .generator id items => partsFrom s onward id 0 items
  | v => pure [⟨v, renderNode s onward v⟩]
termination_by v => (sizeOf v, 1)

/-- What is left of a generator from a position on. -/
def partsFrom (s : Setting) (onward : Context → Value → Pass Text) (id position : Nat) :
    List Value → Pass (List Part)
  | [] => pure []
  | v :: rest => do
    let here ← if ← drawItem id position then partsOf s onward v else pure []
    pure (here ++ (← partsFrom s onward id (position + 1) rest))
termination_by vs => (sizeOf vs, 0)

end

/-- Children behind others are rendered behind them. -/
theorem renderAll_append (s : Setting) (onward : Context → Value → Pass Text) (u v : List Value)
    (ctx : Context) :
    renderAll s onward (u ++ v) ctx = (do
      let t ← renderAll s onward u ctx
      pure (t ++ (← renderAll s onward v ctx))) := by
  induction u with
  | nil => simp only [List.nil_append, renderAll, pure_bind, bind_pure]
  | cons w u ih => simp only [List.cons_append, renderAll, ih, bind_assoc, pure_bind, List.append_assoc]

/-- Children behind others are read behind them. -/
theorem parts_append (s : Setting) (onward : Context → Value → Pass Text) (u v : List Value) :
    parts s onward (u ++ v) = (do
      let ps ← parts s onward u
      pure (ps ++ (← parts s onward v))) := by
  induction u with
  | nil => simp only [List.nil_append, parts, pure_bind, bind_pure]
  | cons w u ih => simp only [List.cons_append, parts, ih, bind_assoc, pure_bind, List.append_assoc]

/-- Rendering within a bound on how often a tree goes on in another one. -/
def renderWithin (s : Setting) : (depth : Nat) → Context → Value → Pass Text
  | 0, _, _ => throw .tooDeep
  | depth + 1, ctx, v => renderNode s (renderWithin s depth) v ctx

/-- The markup of a node. -/
def render (s : Setting) (ctx : Context) (v : Value) : Pass Text := renderWithin s depthLimit ctx v

/-- The markup of a component called with properties, within a bound on the depth. -/
def renderComponent (s : Setting) (depth : Nat) (ctx : Context) (component : Value)
    (props : Mapping) : Pass Text := do
  renderWithin s depth ctx (← Component.call s.isBuilding component props)

end Stencil.Render
