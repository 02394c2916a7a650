import Stencil.Component.Element
import Stencil.Proofs.Template.Outline
import Stencil.Proofs.Value.Mapping
import Stencil.Render.Tree
import Stencil.Template.Substitution

/-!
# Trees without raw markup

A `Tree` is a component tree of plain texts, numbers, nested lists, fragments, elements, conditionals,
loops and value references: no raw markup, no functions, and no name that could pass for a pseudo-tag.
What its names have to be is part of its type.

`Tree.draft` says what rendering the tree for a template comes to: the paths it reads, and an outline.
Nested lists are one sequence of children there, the first alternative that stands directly among the
children of a conditional is told apart from what is around it (`Regions`), and the paths of inner
loops start at the root.
-/

namespace Stencil

open Text Markup Template

/-! ### Names -/

namespace Component

/-- The name of an element that is no pseudo-tag. -/
structure TagName where
  /-- The name. -/
  name : String
  isNameLetter_of_mem : ∀ c ∈ name.toList, isNameLetter c = true
  not_pseudo : ¬ pseudoOpening.tail <+: lower name.toList

/-- A property of an element: its name is without angle brackets, and it does not hold the markup inside
the element. -/
structure Property where
  /-- The name. -/
  name : String
  /-- The value. -/
  value : Value
  angle_not_mem : '<' ∉ name.toList ∧ '>' ∉ name.toList
  not_inner : ∀ entries, value = .map entries → name ∉ innerProperties

/-- A text without an angle bracket. -/
structure PlainName where
  /-- The text. -/
  name : String
  angle_not_mem : '<' ∉ name.toList

/-- The path of an array: not empty, and without an angle bracket. -/
structure ArrayPath extends PlainName where
  ne_nil : name.toList ≠ []

/-- A component tree. -/
inductive Tree where
  /-- A text. -/
  | text (s : String)
  /-- An integer. -/
  | int (i : Int)
  /-- A floating point number. -/
  | float (x : Float)
  /-- Nothing. -/
  | nothing
  /-- A truth value, which renders as nothing. -/
  | truth (b : Bool)
  /-- A list. -/
  | list (items : List Tree)
  /-- A fragment. -/
  | fragment (children : List Tree)
  /-- An element. -/
  | element (tag : TagName) (attributes : List Property) (children : List Tree)
  /-- A conditional region. -/
  | ifThen (condition : String) (children : List Tree)
  /-- The alternative region of a conditional. -/
  | otherwise (children : List Tree)
  /-- A repeated region. -/
  | each (array : ArrayPath) (itemVar : Option PlainName) (children : List Tree)
  /-- A value reference; nothing as its value is no value. -/
  | val (name : PlainName) (value : Tree)

namespace Tree

/-- Attributes as the properties of an element. -/
def properties (attributes : List Property) : Mapping :=
  attributes.map fun property => (.str property.name, property.value)

/-- The name of the item of a loop as a value. -/
def itemVarValue (itemVar : Option PlainName) : Value :=
  Render.nameValue (itemVar.map PlainName.name)

mutual

/-- The value that a tree is. -/
def toValue : Tree → Value
  | text s => .str s
  | int i => .int i
  | float x => .float x
  | nothing => .null
  | truth b => .bool b
  | list items => .list (toValues items)
  | fragment children => Element.fragment (toValues children)
  | element tag attributes children =>
    .element (.str tag.name) (properties attributes) (toValues children)
  | ifThen condition children => Element.ifThen (.str condition) (toValues children)
  | otherwise children => Element.otherwise (toValues children)
  | each array itemVar children =>
    Element.each (.str array.name) (toValues children) (itemVarValue itemVar)
  | val name value => Element.val (.str name.name) value.toValue

/-- The values that some trees are. -/
def toValues : List Tree → List Value
  | [] => []
  | t :: rest => t.toValue :: toValues rest

end

end Tree

/-! ### Drafts -/

/-- What rendering comes to: the paths that are read, in order, and the outline of the markup. -/
structure Draft where
  /-- The paths that are read. -/
  reads : List Text
  /-- The outline of the markup. -/
  outline : Outline

namespace Draft

/-- Nothing. -/
def done : Draft := ⟨[], .done⟩

/-- A run of text. -/
def run (t : Text) (plain : '<' ∉ t) : Draft := ⟨[], .text t plain .done⟩

/-- A reference to a value. -/
def reference (path : Text) (plain : '<' ∉ path) : Draft := ⟨[], .reference path plain .done⟩

/-- One draft behind another. -/
def append (d e : Draft) : Draft := ⟨d.reads ++ e.reads, d.outline.append e.outline⟩

@[simp] theorem done_append (d : Draft) : done.append d = d := rfl

@[simp] theorem append_done (d : Draft) : d.append done = d := by
  simp [append, done]

/-- Drafts side by side may be grouped in any way. -/
theorem append_assoc (d e f : Draft) : (d.append e).append f = d.append (e.append f) := by
  simp [append, Outline.append_assoc]

end Draft

/-- What the children of a node come to, around the first alternative among them. -/
inductive Regions where
  /-- There is no alternative. -/
  | plain (d : Draft)
  /-- An alternative, with what is before it and behind it. -/
  | split (before alternative after : Draft)

namespace Regions

/-- Everything in one, where it is no matter what an alternative is. -/
def whole : Regions → Draft
  | plain d => d
  | split before alternative after => before.append (alternative.append after)

/-- The children of one behind those of another. -/
def append : Regions → Regions → Regions
  | plain d, plain e => plain (d.append e)
  | plain d, split before alternative after => split (d.append before) alternative after
  | split before alternative after, s => split before alternative (after.append s.whole)

/-- The children under a condition. -/
def underCondition (condition : Text) : Regions → Draft
  | plain d => ⟨d.reads, .conditional condition d.outline .done⟩
  | split before alternative after =>
    ⟨before.reads ++ (alternative.reads ++ after.reads),
      .choice condition before.outline alternative.outline after.outline .done⟩

@[simp] theorem whole_plain (d : Draft) : (plain d).whole = d := rfl

/-- The whole of two regions side by side is that of the one and then of the other. -/
theorem whole_append (r s : Regions) : (r.append s).whole = r.whole.append s.whole := by
  cases r <;> cases s <;> simp [append, whole, Draft.append_assoc]

end Regions

/-! ### Elements -/

/-- The names that attributes are renamed to have no angle brackets. -/
private theorem alias_plain : ∀ entry ∈ attributeAliases,
    '<' ∉ entry.2.toList ∧ '>' ∉ entry.2.toList := by
  decide

private theorem mem_of_lookup {name value : String} {entries : List (String × String)}
    (h : entries.lookup name = some value) : (name, value) ∈ entries := by
  induction entries with
  | nil => simp at h
  | cons entry rest ih =>
    obtain ⟨n, v⟩ := entry
    rw [List.lookup_cons] at h
    split at h
    · next hn =>
      obtain rfl : v = value := by simpa using h
      simp [eq_of_beq hn]
    · exact List.mem_cons_of_mem _ (ih h)

/-- A name of an attribute has no angle bracket. -/
private theorem attributeName_plain (p : Property) {c : Char} (hc : c = '<' ∨ c = '>') :
    c ∉ (attributeName p.name).toList := by
  unfold attributeName
  split
  · next name hname =>
    have h := alias_plain _ (mem_of_lookup hname)
    rcases hc with rfl | rfl
    · exact h.1
    · exact h.2
  · intro hmem
    simp only [hyphenated, String.toList_ofList, List.mem_map, List.mem_reverse] at hmem
    obtain ⟨d, hd, heq⟩ := hmem
    have hd : d ∈ p.name.toList :=
      List.mem_reverse.mp ((List.dropWhile_suffix _).subset hd)
    split at heq
    · rcases hc with rfl | rfl <;> simp at heq
    · subst heq
      rcases hc with rfl | rfl
      · exact p.angle_not_mem.1 hd
      · exact p.angle_not_mem.2 hd

/-- A property is written as an attribute, or not at all. -/
private theorem renderProperty_eq (p : String) (v : Value) :
    renderProperty p v = [] ∨
      ∃ w, renderProperty p v = writtenAttribute (attributeName p).toList w := by
  have written : ∀ v : Value, ∃ w,
      renderAttribute (attributeName p) v = writtenAttribute (attributeName p).toList w := by
    intro v
    unfold renderAttribute
    split
    · exact ⟨[], by simp [writtenAttribute]⟩
    · exact ⟨v.display, by simp [writtenAttribute, escapeAttribute]⟩
  unfold renderProperty
  split_ifs
  · exact .inl rfl
  · exact .inl rfl
  · dsimp only
    split_ifs
    · exact .inl rfl
    · exact .inr (written _)
    · exact .inr (written _)

/-- The text of some attributes: without angle brackets, and either empty or from a space to a quote. -/
private def AttributeText (t : Text) : Prop :=
  ('<' ∉ t ∧ '>' ∉ t) ∧ (t = [] ∨ t.head? = some ' ' ∧ t.getLast? = some '"')

/-- Texts of attributes side by side are one. -/
private theorem AttributeText.append {t u : Text} (ht : AttributeText t) (hu : AttributeText u) :
    AttributeText (t ++ u) := by
  obtain ⟨ht, rfl | ⟨hthead, htlast⟩⟩ := ht
  · exact hu
  obtain ⟨hu, rfl | ⟨huhead, hulast⟩⟩ := hu
  · rw [List.append_nil]
    exact ⟨ht, .inr ⟨hthead, htlast⟩⟩
  · exact ⟨by simp [ht, hu], .inr ⟨by simp [List.head?_append, hthead],
      by simp [List.getLast?_append, hulast]⟩⟩

/-- A rendered attribute is a text of attributes, also one that is left out. -/
private theorem attributeText_renderProperty (p : Property) :
    AttributeText (renderProperty p.name p.value) := by
  rcases renderProperty_eq p.name p.value with h | ⟨w, h⟩
  · rw [h]
    exact ⟨by simp, .inl rfl⟩
  · rw [h]
    exact ⟨⟨not_mem_writtenAttribute (attributeName_plain p (.inl rfl)) (.inl rfl),
      not_mem_writtenAttribute (attributeName_plain p (.inr rfl)) (.inr rfl)⟩,
      .inr ⟨rfl, by rw [writtenAttribute, List.getLast?_append]; rfl⟩⟩

namespace Tree

/-- The text of attributes. -/
def attributesText (attributes : List Property) : Text :=
  attributes.flatMap fun property => renderProperty property.name property.value

/-- The rendered attributes of an element are a text of attributes. -/
private theorem attributeText_attributesText (attributes : List Property) :
    AttributeText (attributesText attributes) := by
  induction attributes with
  | nil => exact ⟨by simp [attributesText], .inl rfl⟩
  | cons entry rest ih => exact (attributeText_renderProperty entry).append ih

/-- The tags of an element. -/
def shell (tag : TagName) (attributes : List Property) : Shell where
  tag := tag.name
  attributes := attributesText attributes
  isNameLetter_of_mem := tag.isNameLetter_of_mem
  not_pseudo := tag.not_pseudo
  attributes_plain := (attributeText_attributesText attributes).1
  attributes_head := (attributeText_attributesText attributes).2.imp id And.left
  attributes_last := by
    rcases (attributeText_attributesText attributes).2 with h | h <;> simp [h]

end Tree

/-! ### Loops -/

/-- The loop around a node: the path of its array, and the name of its item. -/
structure Enclosing where
  /-- The path of the array. -/
  path : Text
  /-- The name of the item. -/
  itemVar : Option String
  angle_not_mem : '<' ∉ path

/-- The path of an array seen from the root. -/
def absolute (loop : Option Enclosing) (path : Text) : Text :=
  match loop with
  | some l => Render.continuedPath path l.path l.itemVar
  | none => path

/-- What stands behind a name in a path is part of the path. -/
private theorem mem_of_behindName? {name path rest : Text} {c : Char}
    (h : Render.behindName? name path = some rest) (hc : c ∈ rest) : c ∈ path := by
  unfold Render.behindName? at h
  split_ifs at h
  · obtain rfl : [] = rest := by simpa using h
    simp at hc
  · rw [eq_append_of_after? h]
    exact List.mem_append_right _ hc

/-- A path seen from the item has the characters of the path only. -/
theorem mem_of_mem_relativePath {path : Text} {itemVar : Option String} {c : Char}
    (h : c ∈ Render.relativePath path itemVar) : c ∈ path := by
  unfold Render.relativePath at h
  dsimp only at h
  cases hthis : Render.behindName? "this".toList (trim path) with
  | some rest =>
    rw [hthis, Option.some_or, Option.getD_some] at h
    exact mem_of_mem_trim (mem_of_behindName? hthis h)
  | none =>
    rw [hthis, Option.none_or] at h
    cases hvar : itemVar.bind fun name => Render.behindName? name.toList (trim path) with
    | some rest =>
      rw [hvar, Option.getD_some] at h
      obtain ⟨name, -, hname⟩ := Option.bind_eq_some_iff.mp hvar
      exact mem_of_mem_trim (mem_of_behindName? hname h)
    | none =>
      rw [hvar, Option.getD_none] at h
      exact mem_of_mem_trim h

/-- A path that is not empty is not empty in a loop either. -/
theorem absolute_ne_nil (loop : Option Enclosing) {path : Text} (h : path ≠ []) :
    absolute loop path ≠ [] := by
  cases loop with
  | none => exact h
  | some l =>
    unfold absolute Render.continuedPath
    dsimp only
    split_ifs
    · exact h
    · simp
    · simp

/-- The array around a path brings no angle bracket into it. -/
theorem angle_not_mem_absolute (loop : Option Enclosing) {path : Text} (h : '<' ∉ path) :
    '<' ∉ absolute loop path := by
  cases loop with
  | none => exact h
  | some l =>
    have hpath := l.angle_not_mem
    have hrelative : '<' ∉ Render.relativePath path l.itemVar := fun hmem =>
      h (mem_of_mem_relativePath hmem)
    unfold absolute Render.continuedPath
    dsimp only
    split_ifs
    · exact h
    · simp [hpath]
    · simp [hpath, hrelative]

namespace Tree

/-- The head of a loop inside another one, if there is one around it. -/
def head (loop : Option Enclosing) (array : ArrayPath) (itemVar : Option PlainName) :
    PlainHead where
  array := absolute loop array.name.toList
  itemVar := (itemVar.map fun v => v.name.toList).filter fun v => !v.isEmpty
  array_ne_nil := absolute_ne_nil loop array.ne_nil
  itemVar_ne_nil h := by simp [Option.filter_eq_some_iff] at h
  angle_not_mem_array := angle_not_mem_absolute loop array.angle_not_mem
  angle_not_mem_itemVar v hv := by
    obtain ⟨hv, -⟩ := Option.filter_eq_some_iff.mp hv
    obtain ⟨name, -, rfl⟩ := Option.map_eq_some_iff.mp hv
    exact name.angle_not_mem

/-- What is around the children of a loop. -/
def enclosing (loop : Option Enclosing) (array : ArrayPath) (itemVar : Option PlainName) :
    Enclosing :=
  ⟨absolute loop array.name.toList, itemVar.map PlainName.name,
    angle_not_mem_absolute loop array.angle_not_mem⟩

/-- The path of a part of the item of a loop. -/
def itemPath (name : PlainName) (loop : Enclosing) : Text :=
  let relative := Render.relativePath name.name.toList loop.itemVar
  if relative.isEmpty then "this".toList else "this.".toList ++ relative

/-- The path of an item is without angle brackets. -/
theorem angle_not_mem_itemPath (name : PlainName) (loop : Enclosing) :
    '<' ∉ itemPath name loop := by
  have hrelative : '<' ∉ Render.relativePath name.name.toList loop.itemVar := fun h =>
    name.angle_not_mem (mem_of_mem_relativePath h)
  unfold itemPath
  dsimp only
  split_ifs
  · decide
  · simp [hrelative]

/-! ### The draft of a tree -/

/-- A value as it is written between tags. -/
def shown (v : Value) : Draft := .run (escape v.display) fun h => (mem_escape h).1 rfl

/-- An element around what is inside it, of which a void element has nothing. -/
def elementDraft (tag : TagName) (attributes : List Property) (inside : Draft) : Draft :=
  if isVoid tag.name then ⟨[], .element (shell tag attributes) .done .done⟩
  else ⟨inside.reads, .element (shell tag attributes) inside.outline .done⟩

/-- Whether a tree is no value. -/
def isNothing : Tree → Bool
  | nothing => true
  | _ => false

mutual

/-- What a tree comes to among the children of a node, inside a loop or in none. -/
def regions (loop : Option Enclosing) : Tree → Regions
  | text s => .plain (shown (.str s))
  | int i => .plain (shown (.int i))
  | float x => .plain (shown (.float x))
  | nothing | truth _ => .plain .done
  | list items => regionsAll loop items
  | fragment children => .plain (regionsAll loop children).whole
  | element tag attributes children =>
    .plain (elementDraft tag attributes (regionsAll loop children).whole)
  | ifThen condition children => .plain ((regionsAll loop children).underCondition condition.toList)
  | otherwise children => .split .done (regionsAll loop children).whole .done
  | each array itemVar children =>
    let body := (regionsAll (some (enclosing loop array itemVar)) children).whole
    .plain ⟨array.name.toList :: body.reads,
      .loop (head loop array itemVar) body.outline .done⟩
  | val name value =>
    match loop with
    | some l => .plain (.reference (itemPath name l) (angle_not_mem_itemPath name l))
    | none =>
      if value.isNothing then .plain (.reference name.name.toList name.angle_not_mem)
      else .plain (regions none value).whole

/-- What some trees come to as the children of a node. -/
def regionsAll (loop : Option Enclosing) : List Tree → Regions
  | [] => .plain .done
  | t :: rest => (regions loop t).append (regionsAll loop rest)

end

/-- A value reference is no alternative. -/
theorem regions_val (loop : Option Enclosing) (name : PlainName) (value : Tree) :
    regions loop (.val name value) = .plain (regions loop (.val name value)).whole := by
  cases loop with
  | some l => simp [regions, Regions.whole]
  | none =>
    simp only [regions]
    split <;> rfl

/-- What rendering a tree for a template comes to. -/
def draft (t : Tree) : Draft := (t.regions none).whole

/-- The bottom-up compilation of a tree. -/
def template (t : Tree) : Text := t.draft.outline.template

/-- A tree in which no item is named inside the name of a tag: no array path, seen from the root, has
a space or `>` in it, or no name of an item begins with `h` or `/`. -/
def Steady (t : Tree) : Prop := t.draft.outline.Steady

instance : DecidablePred Steady := fun t => inferInstanceAs (Decidable t.draft.outline.Steady)

end Tree

end Component

end Stencil
