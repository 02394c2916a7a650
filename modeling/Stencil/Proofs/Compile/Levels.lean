import Stencil.Compile
import Stencil.Proofs.Marker.Sample
import Stencil.Proofs.Render.Markers
import Stencil.Proofs.Render.Names

/-!
# Loops over loops

A list of `Level`s is a component of nested loops: each loop is over the list at a key of the item of
the loop around it, and the render function of the innermost one returns a field of its item
(`nested`).

Rendered for a template with sample data in which the keys lead to a field, the component comes to
pseudo-tags around the field, whose arrays are spelled from the root (`gives_returned`). The path of
an array is, level by level, the base that marking the sample uses at this place (`absolute_name`).
-/

namespace Stencil.Compile

open Text Template Component Render Marker

/-! ### Levels -/

/-- The beginning of markers. -/
def markerLead : Text := ['_', '_', 'P', 'R', 'O', 'P', '_']

/-- A name in nested loops: an identifier, but not `this`, and without the beginning of markers. -/
structure LevelName where
  /-- The name. -/
  name : String
  isIdentifier : IsIdentifier name.toList
  ne_this : name ≠ "this"
  unmarked : ¬ markerLead <:+: name.toList

/-- One of the loops. -/
structure Level where
  /-- The key of the list that the loop is over. -/
  key : LevelName
  /-- The name of the item. -/
  itemVar : Option LevelName
  /-- Whether the loop inside calls the item by its name, if it has one. -/
  byName : Bool

namespace Level

variable (l : Level)

/-- The name of the item as a text. -/
def itemName? : Option String := l.itemVar.map LevelName.name

/-- The word that the loop inside calls the item by. -/
def word : String := if l.byName then l.itemName?.getD "this" else "this"

/-- The loop around what its render function returns. -/
def each (array : String) (returned : Body) : Body :=
  .each (.str array) [.closure "<lambda>" returned .null []]
    (match l.itemName? with
    | some v => .str v
    | none => .null)

/-- The path of the list inside another loop, or inside none. -/
def arrayIn : Option Level → String
  | some outer => outer.word ++ "." ++ l.key.name
  | none => l.key.name

end Level

/-- What is inside a loop: the loop of the next level, or a field of the item. -/
def returned (field : String) (outer : Option Level) : List Level → Body
  | [] => .ref "item" [.key field]
  | l :: ls => l.each (l.arrayIn outer) (returned field (some l) ls)

/-- The component of nested loops over its properties. -/
def nested (field : String) (levels : List Level) : Value :=
  .closure "Nested" [] (.provider (.ref "props" []) [returned field none levels]) []

/-! ### What names are -/

namespace Level

variable (l : Level)

/-- The item of a level is named by an identifier, if at all. -/
theorem isIdentifier_of_mem {v : String} (h : v ∈ l.itemName?) : IsIdentifier v.toList := by
  obtain ⟨name, -, rfl⟩ := Option.map_eq_some_iff.mp h
  exact name.isIdentifier

theorem itemName?_ne : l.itemName? ≠ some "" := fun h => (l.isIdentifier_of_mem h).ne_nil rfl

/-- The word for the item of a level is an identifier. -/
theorem isIdentifier_word : IsIdentifier l.word.toList := by
  unfold word
  split
  · cases hv : l.itemName? with
    | none => exact isIdentifier_this
    | some v => exact l.isIdentifier_of_mem hv
  · exact isIdentifier_this

/-- The word of a level is a word for its item. -/
theorem isItemWord_word : IsItemWord l.itemName? l.word := by
  unfold word
  split
  · cases l.itemName? with
    | none => exact .inl rfl
    | some v => exact .inr rfl
  · exact .inl rfl

/-- Within another loop, an array is reached by the word for the item. -/
theorem toList_arrayIn (outer : Level) :
    (l.arrayIn (some outer)).toList = outer.word.toList ++ '.' :: l.key.name.toList := by
  have hdot : ".".toList = ['.'] := by decide
  simp [arrayIn, String.toList_append, hdot]

/-- The array of a level is a path of names. -/
theorem isNamePath_arrayIn (outer : Option Level) : IsNamePath (l.arrayIn outer).toList := by
  cases outer with
  | none => exact .name l.key.isIdentifier
  | some o =>
    rw [toList_arrayIn]
    exact .field o.isIdentifier_word (.name l.key.isIdentifier)

/-- The path of the list as the path of an array. -/
def array (outer : Option Level) : ArrayPath where
  name := l.arrayIn outer
  angle_not_mem := (l.isNamePath_arrayIn outer).not_mem (by decide) (by decide)
  ne_nil := (l.isNamePath_arrayIn outer).ne_nil

/-- The name of the item as the name of an item. -/
def plainVar : Option PlainName :=
  l.itemVar.map fun v => ⟨v.name, v.isIdentifier.not_mem (by decide)⟩

theorem map_plainVar : l.plainVar.map PlainName.name = l.itemName? := by
  unfold plainVar itemName?
  cases l.itemVar <;> rfl

end Level

/-! ### Rendering -/

/-- What the component comes to around what its innermost render function comes to. -/
def draft (inside : Outline) (loop : Option Enclosing) (outer : Option Level) :
    List Level → Draft
  | [] => ⟨[], inside⟩
  | l :: ls =>
    let d := draft inside (some (Tree.enclosing loop (l.array outer) l.plainVar)) (some l) ls
    ⟨(l.arrayIn outer).toList :: d.reads,
      .loop (Tree.head loop (l.array outer) l.plainVar) d.outline .done⟩

/-- All paths that are read can be read. -/
theorem readAll_draft (inside : Outline) (loop : Option Enclosing) (outer : Option Level)
    (levels : List Level) : readAll (draft inside loop outer levels).reads = .ok () := by
  induction levels generalizing loop outer with
  | nil => rfl
  | cons l ls ih =>
    change (do (do let _ ← Path.read _; pure ()); readAll _) = _
    rw [(l.isNamePath_arrayIn outer).read_eq, ih]
    rfl

/-- A context of rendering with markers, inside a loop or not, and the value whose keys the arrays of the
loops inside are. -/
inductive Stands (markers : Option Registry) :
    Context → Option Enclosing → Option Level → Mapping → Prop
  | root (entries : Mapping) : Stands markers { data := .map entries, markers } none none entries
  | inside (entries item : Mapping) (loop : Option Enclosing) (array : ArrayPath) (l : Level) :
      Stands markers
        { data := .map entries, loop := some (loopScope loop array l.plainVar (.map item)), markers }
        (some (Tree.enclosing loop array l.plainVar)) (some l) item

namespace Stands

variable {markers : Option Registry} {ctx : Context} {loop : Option Enclosing} {outer : Option Level}
  {entries : Mapping}

theorem suits (h : Stands markers ctx loop outer entries) : Suits markers ctx loop := by
  cases h with
  | root => exact .outside _
  | inside entries item loop array l =>
    refine .inside _ _ _ ?_ rfl ⟨_, rfl⟩
    simp [loopScope, Tree.enclosing]

theorem body (h : Stands markers ctx loop outer entries) (array : ArrayPath) (l : Level)
    (item : Mapping) :
    Stands markers { ctx with loop := some (loopScope loop array l.plainVar (.map item)) }
      (some (Tree.enclosing loop array l.plainVar)) (some l) item := by
  cases h with
  | root => exact .inside _ _ _ _ _
  | inside => exact .inside _ _ _ _ _

/-- The array of the next level is at its key. -/
theorem resolve_arrayIn (h : Stands markers ctx loop outer entries) {data : Value}
    (hdata : ctx.scopedData = .ok data) (l : Level) :
    data.resolve (l.arrayIn outer).toList = (entries.at? l.key.name).getD .absent := by
  cases h with
  | root =>
    cases hdata
    rw [Level.arrayIn, resolve_name l.key.isIdentifier, String.ofList_toList]
  | inside root _ loop array o =>
    have hcurrent : (loopScope loop array o.plainVar (.map entries)).current = .ok (.map entries) :=
      rfl
    have hvar : (loopScope loop array o.plainVar (.map entries)).itemVar = nameValue o.itemName? := by
      rw [← o.map_plainVar]
      rfl
    have hscoped : Context.scopedData ⟨.map root, _, markers⟩ = _ :=
      scopedData_of_current hcurrent nofun hvar markers
    rw [hscoped] at hdata
    cases hdata
    rw [Level.toList_arrayIn, resolve_withItem_field _ o.isItemWord_word o.isIdentifier_word
      o.itemName?_ne, resolve_name l.key.isIdentifier, String.ofList_toList]

end Stands

/-- A loop evaluates to itself, with its render function in the scope around it. -/
theorem eval_each (isBuilding : Bool) (scope : Scope) (l : Level) (array : String) (body : Body)
    (session : Session) : (l.each array body).eval isBuilding scope session =
      .ok (Element.each (.str array) [.closure "<lambda>" scope body []] (nameValue l.itemName?),
        session) := by
  unfold Level.each
  cases l.itemName? <;> rfl

/-- A render function is called with the item. -/
theorem gives_renderBody_closure {isBuilding : Bool} {onward : Context → Value → Pass Text}
    {ctx : Context} {name : String} {scope : Scope} {body : Body}
    {traits : List (String × Value)} {item v : Value} {d : Draft}
    (heval : ∀ session, body.eval isBuilding (("item", item) :: ("index", .int 0) :: scope) session =
      .ok (v, session)) (hgives : Gives (onward ctx v) d) :
    Gives (renderBody ⟨.markers, isBuilding⟩ onward
      (parts ⟨.markers, isBuilding⟩ onward [.closure name scope body traits]) ctx item 0) d := by
  have hparts : parts ⟨.markers, isBuilding⟩ onward [.closure name scope body traits] =
      pure [⟨.closure name scope body traits,
        renderNode ⟨.markers, isBuilding⟩ onward (.closure name scope body traits)⟩] := by
    simp [parts, partsOf]
  unfold renderBody
  rw [hparts, pure_bind]
  exact Yields.bind (.of_ok heval) hgives

/-- **Rendering.** Where the keys of the levels lead to a token, the loops come to pseudo-tags around the
token. -/
theorem gives_returned (isBuilding : Bool) {field token : String} {markers : Option Registry}
    {levels : List Level} {scope : Scope} {ctx : Context} {loop : Option Enclosing}
    {outer : Option Level} {entries : Mapping} {depth : ℕ}
    (hstands : Stands markers ctx loop outer entries)
    (hleads : Leads field (· = .str token) (levels.map fun l => l.key.name) (.map entries))
    (hscope : levels = [] → scope.lookup "item" = some (.map entries))
    (hdepth : levels.length ≤ depth) :
    ∃ v, (∀ session, (returned field outer levels).eval isBuilding scope session =
        .ok (v, session)) ∧
      Gives (renderNode ⟨.markers, isBuilding⟩ (renderWithin ⟨.markers, isBuilding⟩ depth) v ctx)
        (draft (Tree.shown (.str token)).outline loop outer levels) := by
  induction levels generalizing scope ctx loop outer entries depth with
  | nil =>
    rw [List.map_nil] at hleads
    cases hleads with
    | leaf found holds =>
      subst holds
      refine ⟨.str token, fun session => ?_, ?_⟩
      · have hselect : (Value.map entries).select [.key field] = .str token := by
          have hfound : Mapping.get? (.str field) entries = some (.str token) := found
          simp [Value.select, Value.select?, Segment.toValue, hfound]
        rw [returned, Body.eval, hscope rfl, Option.getD_some, hselect]
        rfl
      · simp only [renderNode]
        exact gives_shown (.str token)
  | cons l ls ih =>
    rw [List.map_cons] at hleads
    cases hleads with
    | @list _ _ _ v item rest found items next =>
      obtain ⟨depth, rfl⟩ : ∃ d, depth = d + 1 := ⟨depth - 1, by simp at hdepth; omega⟩
      obtain ⟨inner, rfl⟩ := next.exists_eq_map
      refine ⟨_, eval_each isBuilding scope l _ _, ?_⟩
      rw [← l.map_plainVar]
      change Gives (renderNode _ _ (Element.each (.str (l.array outer).name) _
        (Tree.itemVarValue l.plainVar)) ctx) _
      rw [renderNode_each]
      refine gives_markersEach hstands.suits fun {data first} hdata hfirst => ?_
      -- the array is looked up in the item of the loop around, which is where the way goes on
      have hresolved : data.resolve (l.array outer).name.toList = v := by
        have harrayIn := hstands.resolve_arrayIn hdata l
        rwa [found, Option.getD_some] at harrayIn
      rw [hresolved, Render.representative, items] at hfirst
      obtain rfl : first = .map inner := hfirst
      have hitem : List.lookup "item" (("item", .map inner) :: ("index", .int 0) :: scope) =
          some (Value.map inner) := rfl
      obtain ⟨w, heval, hgives⟩ := ih (hstands.body (l.array outer) l inner) next (fun _ => hitem)
        (show ls.length ≤ depth by simpa using hdepth)
      exact gives_renderBody_closure heval hgives

end Stencil.Compile
