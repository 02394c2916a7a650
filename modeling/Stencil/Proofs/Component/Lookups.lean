import Stencil.Proofs.Component.Tree
import Stencil.Proofs.Condition
import Stencil.Proofs.Template.Meaning

/-!
# Paths of a tree in its template

`Tree.lookups` lists where a tree looks something up: conditions, arrays and references, each with the
names of the items of the loops around it, innermost first.

Where these are paths of names (`IsNamed`), the template of the tree is a body of its own
(`isCompiled_regions`): its loops can be lowered one by one, all its paths can be read back, and none has
an item in it that stands for all items. What a path of an array is in the template is `inTemplate`: one
that begins with a word for the item of its loop begins with what this loop calls its item, and any other
one stays (`inTemplate_own`, `inTemplate_foreign`).
-/

namespace Stencil.Template

open Text

namespace Content

/-- Every path of a body can be read back, and has no position in it. -/
def IsNamed : Content → Prop
  | text _ => True
  | reference _ p r => (IsReference p ∧ '[' ∉ p) ∧ r.IsNamed
  | loop _ a v b r =>
    ((IsBare a ∧ '[' ∉ a) ∧ ∀ name ∈ v, IsItemName name ∧ '[' ∉ name) ∧ b.IsNamed ∧ r.IsNamed
  | conditional _ _ p b r => ('\x7d' ∉ p ∧ '[' ∉ p) ∧ b.IsNamed ∧ r.IsNamed
  | choice _ _ p b a r => ('\x7d' ∉ p ∧ '[' ∉ p) ∧ b.IsNamed ∧ a.IsNamed ∧ r.IsNamed

section IsNamed

variable {b c : Content}

/-- Text in front does not matter for the names in a content. -/
@[simp] theorem isNamed_prepend (t : Text) : (b.prepend t).IsNamed ↔ b.IsNamed := by
  cases b <;> rfl

/-- A content is named if both of its parts are. -/
@[simp] theorem isNamed_append : (b.append c).IsNamed ↔ b.IsNamed ∧ c.IsNamed := by
  induction b <;> simp_all [append, IsNamed, and_assoc]

theorem isNamed_bare : b.bare.IsNamed ↔ b.IsNamed := by
  unfold bare
  induction b <;> simp_all [map, IsNamed]

/-- Items of loops further out are not named again. -/
theorem IsNamed.map_eq (h : b.IsNamed) (array name : Text) : b.map id (nameItem array name) = b := by
  have stays : ∀ {t : Text}, '[' ∉ t → nameItem array name t = t := fun h =>
    (itemless_of_bracket_not_mem h).nameItem name
  induction b with
  | text t => rfl
  | reference t p r ih => rw [map, stays h.1.2, ih h.2, id]
  | loop t a v b r ihb ihr =>
    obtain ⟨⟨⟨-, ha⟩, hv⟩, hb, hr⟩ := h
    have hname : v.map (nameItem array name) = v := by
      cases hv' : v with
      | none => rfl
      | some w => rw [Option.map_some, stays (hv w hv').2]
    rw [map, stays ha, hname, ihb hb, ihr hr, id]
  | conditional t n p b r ihb ihr => rw [map, stays h.1.2, ihb h.2.1, ihr h.2.2, id]
  | choice t n p b a r ihb iha ihr =>
    rw [map, stays h.1.2, ihb h.2.1, iha h.2.2.1, ihr h.2.2.2, id]

/-- With no brace in its runs, a body is read off its text. -/
theorem IsNamed.readable (h : b.IsNamed) (hruns : b.EveryRun ('\x7b' ∉ ·)) : b.Readable := by
  induction b with
  | text t => exact hruns
  | reference t p r ih => exact ⟨hruns.1, h.1.1, ih h.2 hruns.2⟩
  | loop t a v b r ihb ihr =>
    exact ⟨hruns.1, ⟨h.1.1.1, fun name hname => (h.1.2 name hname).1⟩, ihb h.2.1 hruns.2.1,
      ihr h.2.2 hruns.2.2⟩
  | conditional t n p b r ihb ihr =>
    exact ⟨hruns.1, h.1.1, ihb h.2.1 hruns.2.1, ihr h.2.2 hruns.2.2⟩
  | choice t n p b a r ihb iha ihr =>
    exact ⟨hruns.1, h.1.1, ihb h.2.1 hruns.2.1, iha h.2.2.1 hruns.2.2.1, ihr h.2.2.2 hruns.2.2.2⟩

variable {conjuncts : List Text}
  (hpaths : ∀ x ∈ conjuncts, '\x7d' ∉ (conjunctPath x).2 ∧ '[' ∉ (conjunctPath x).2)

include hpaths

/-- The blocks of a condition keep a content named. -/
theorem IsNamed.enclose (h : b.IsNamed) : (b.enclose conjuncts).IsNamed := by
  induction conjuncts with
  | nil => exact h
  | cons x xs ih => exact ⟨hpaths x (by simp), ih fun y hy => hpaths y (by simp [hy]), trivial⟩

/-- The blocks of a condition with an alternative keep contents named. -/
theorem IsNamed.encloseWith (hc : c.IsNamed) (hb : b.IsNamed) :
    (c.encloseWith b conjuncts).IsNamed := by
  induction conjuncts with
  | nil => exact hb
  | cons x xs ih => exact ⟨hpaths x (by simp), ih fun y hy => hpaths y (by simp [hy]), hc, trivial⟩

/-- Naming an item in the blocks of a condition is naming it in the body, as conjuncts name no item. -/
theorem map_enclose (array name : Text) : (b.enclose conjuncts).map id (nameItem array name) =
    (b.map id (nameItem array name)).enclose conjuncts := by
  induction conjuncts with
  | nil => rfl
  | cons x xs ih =>
    have hx : nameItem array name (conjunctPath x).2 = (conjunctPath x).2 :=
      (itemless_of_bracket_not_mem (hpaths x (by simp)).2).nameItem name
    rw [Content.enclose, map, ih fun y hy => hpaths y (by simp [hy]), hx]
    rfl

/-- The same with an alternative in every block. -/
theorem map_encloseWith (array name : Text) :
    (c.encloseWith b conjuncts).map id (nameItem array name) =
      (c.map id (nameItem array name)).encloseWith (b.map id (nameItem array name)) conjuncts := by
  induction conjuncts with
  | nil => rfl
  | cons x xs ih =>
    have hx : nameItem array name (conjunctPath x).2 = (conjunctPath x).2 :=
      (itemless_of_bracket_not_mem (hpaths x (by simp)).2).nameItem name
    rw [Content.encloseWith, map, ih fun y hy => hpaths y (by simp [hy]), hx]
    rfl

end IsNamed

end Content

end Stencil.Template

namespace Stencil.Component

open Text Template Render

/-! ### Lookups -/

/-- Where a tree looks something up. -/
inductive Lookup where
  /-- In a condition. -/
  | condition (text : Text)
  /-- At the array of a loop, whose items may have a name. -/
  | array (path : Text) (itemVar : Option Text)
  /-- At a reference. -/
  | reference (name : Text)
  /-- Nowhere: the value in the place of a reference is given. -/
  | given
  deriving DecidableEq

/-- The name of an item as a text. -/
def PlainName.text (v : PlainName) : Text := v.name.toList

namespace Tree

mutual

/-- The lookups of a tree inside loops, each with the names of the items of all loops around it, innermost
first. -/
def lookups (loops : List (Option Text)) : Tree → List (List (Option Text) × Lookup)
  | text _ | int _ | float _ | nothing | truth _ => []
  | list items => lookupsAll loops items
  | fragment children | otherwise children => lookupsAll loops children
  | element tag _ children => if Markup.isVoid tag.name then [] else lookupsAll loops children
  | ifThen condition children =>
    (loops, .condition condition.toList) :: lookupsAll loops children
  | each array itemVar children =>
    (loops, .array array.text (itemVar.map PlainName.text)) ::
      lookupsAll (itemVar.map PlainName.text :: loops) children
  | val name value =>
    match loops, value.isNothing with
    | [], false => ([], .given) :: value.lookups []
    | loops, _ => [(loops, .reference name.text)]

/-- The lookups of some trees. -/
def lookupsAll (loops : List (Option Text)) : List Tree → List (List (Option Text) × Lookup)
  | [] => []
  | t :: rest => t.lookups loops ++ lookupsAll loops rest

end

end Tree

/-- A condition without alternatives over paths of names. -/
def IsConjunction (condition : Text) : Prop :=
  ¬ Condition.orSign <:+: condition ∧ ∃ c, Condition.validateText condition = .ok c ∧
    ∀ x ∈ Condition.terms c, IsNamePath x

/-- Lookups by paths of names; outside of loops no reference is written like the tag before an
alternative. -/
def IsNamed : List (Option Text) × Lookup → Prop
  | (_, .condition text) => IsConjunction text
  | (_, .array path itemVar) => IsNamePath path ∧ ∀ v ∈ itemVar, IsIdentifier v
  | (loops, .reference name) => IsNamePath name ∧ (loops = [] → name ≠ "else".toList)
  | (_, .given) => True

/-- A conjunction is a valid condition of names without a sign for alternatives. -/
theorem isConjunction_iff {condition : Text} : IsConjunction condition ↔
    ¬ Condition.orSign <:+: condition ∧ ∃ c ∈ (Condition.validateText condition).toOption,
      ∀ x ∈ Condition.terms c, IsNamePath x := by
  unfold IsConjunction
  cases Condition.validateText condition <;> simp [Except.toOption]

instance : DecidablePred IsConjunction := fun _ => decidable_of_iff _ isConjunction_iff.symm

instance : DecidablePred IsNamed
  | (_, .condition text) => inferInstanceAs (Decidable (IsConjunction text))
  | (_, .array path itemVar) =>
    inferInstanceAs (Decidable (IsNamePath path ∧ ∀ v ∈ itemVar, IsIdentifier v))
  | (loops, .reference name) =>
    inferInstanceAs (Decidable (IsNamePath name ∧ (loops = [] → name ≠ "else".toList)))
  | (_, .given) => inferInstanceAs (Decidable True)

/-- A conjunction is read as it is, and its conjuncts have paths of names. -/
theorem IsConjunction.exists_conjuncts {condition : Text} (h : IsConjunction condition) :
    ∃ c, Condition.validateText condition = .ok c ∧
      Condition.validateText (unwrapped condition) = .ok c ∧
      ∀ x ∈ Condition.splitConjuncts c, IsNamePath (conjunctPath x).2 := by
  obtain ⟨habsent, c, hvalid, hterms⟩ := h
  refine ⟨c, hvalid, by rw [Condition.unwrapped_of_validateText hvalid, hvalid], fun x hx => hterms _ ?_⟩
  rw [← Condition.map_conjunctPath hvalid habsent]
  exact List.mem_map_of_mem hx

/-! ### Names of items -/

/-- A word for the item is one of a loop's own words. -/
theorem isItemWord_iff {itemVar : Option String} {a : Text} :
    IsItemWord itemVar (String.ofList a) ↔ IsOwnWord (itemVar.map String.toList) a := by
  have hthis : String.ofList a = "this" ↔ a = "this".toList :=
    ⟨fun h => by rw [← h, String.toList_ofList], fun h => by rw [h, String.ofList_toList]⟩
  have hname : itemVar = some (String.ofList a) ↔ itemVar.map String.toList = some a := by
    cases itemVar with
    | none => simp
    | some v =>
      simp only [Option.map_some, Option.some.injEq]
      exact ⟨fun h => by rw [h, String.toList_ofList], fun h => by rw [← h, String.ofList_toList]⟩
  rw [IsItemWord, IsOwnWord, hthis, hname]

namespace Enclosing

variable (e : Enclosing)

/-- The name of the item as a text. -/
def name : Option Text := e.itemVar.map String.toList

/-- What the item is called in the template. -/
def item : Text := itemName e.name

/-- A loop over an array spelled with names, whose item has an identifier as its name if it has one. -/
structure IsSpelled : Prop where
  isJoined : IsJoined e.path
  isIdentifier : ∀ v ∈ e.itemVar, IsIdentifier v.toList

variable {e}

theorem IsSpelled.isIdentifier_name (h : e.IsSpelled) : ∀ v ∈ e.name, IsIdentifier v := by
  intro v hv
  obtain ⟨w, hw, rfl⟩ := Option.map_eq_some_iff.mp hv
  exact h.isIdentifier w hw

/-- The item of a loop that is spelled out has an identifier for its name. -/
theorem IsSpelled.isIdentifier_item (h : e.IsSpelled) : IsIdentifier e.item := by
  unfold item
  cases hv : e.name with
  | none => exact isIdentifier_this
  | some v => exact h.isIdentifier_name v hv

/-- The name of the item is a word of the loop. -/
theorem isOwnWord_item (e : Enclosing) : IsOwnWord e.name e.item := by
  unfold item
  cases hv : e.name with
  | none => exact .inl rfl
  | some v => exact .inr rfl

end Enclosing

/-- The loop around a part, and the names of the items of all loops around it. -/
inductive Encloses : Option Enclosing → List (Option Text) → Prop
  | root : Encloses none []
  | within (e : Enclosing) (outer : List (Option Text)) (isSpelled : e.IsSpelled) :
      Encloses (some e) (e.name :: outer)

/-! ### Paths -/

/-- A path of names is one name, or one name and a path behind a dot. -/
theorem IsNamePath.firstName_cases {p : Text} (h : IsNamePath p) :
    (IsIdentifier p ∧ firstName p = (p, [])) ∨
      ∃ a t, p = a ++ '.' :: t ∧ IsIdentifier a ∧ IsNamePath t ∧ firstName p = (a, t) := by
  cases h with
  | name h => exact .inl ⟨h, firstName_name (h.not_mem (by decide))⟩
  | field h ht => exact .inr ⟨_, _, rfl, h, ht, firstName_field (h.not_mem (by decide)) _⟩

/-- A path seen from an item: behind its first name, if that is a word for the item. -/
theorem relativePath_eq_of_own {e : Enclosing} {p : Text} (h : IsNamePath p)
    (hown : IsOwnWord e.name (firstName p).1) :
    relativePath p e.itemVar = (firstName p).2 := by
  rcases IsNamePath.firstName_cases h with ⟨ha, hfirst⟩ | ⟨a, t, rfl, ha, ht, hfirst⟩
  · rw [hfirst] at hown ⊢
    have hword := isItemWord_iff.mpr hown
    have hrelative := relativePath_word hword (by rwa [String.toList_ofList])
    rwa [String.toList_ofList] at hrelative
  · rw [hfirst] at hown ⊢
    have hword := isItemWord_iff.mpr hown
    have hrelative := relativePath_field hword (by rwa [String.toList_ofList]) ht
    rwa [String.toList_ofList] at hrelative

/-- A path that begins with no word of the loop is left as it is. -/
theorem relativePath_eq_of_foreign {e : Enclosing} (he : e.IsSpelled) {p : Text} (h : IsNamePath p)
    (hforeign : ¬ IsOwnWord e.name (firstName p).1) : relativePath p e.itemVar = p := by
  rcases IsNamePath.firstName_cases h with ⟨ha, hfirst⟩ | ⟨a, t, rfl, ha, ht, hfirst⟩
  · rw [hfirst] at hforeign
    exact (relativePath_of_ne ha (mt isItemWord_iff.mp hforeign) he.isIdentifier).1
  · rw [hfirst] at hforeign
    exact (relativePath_of_ne ha (mt isItemWord_iff.mp hforeign) he.isIdentifier).2 t ht

/-- Seen from an item, a path is empty or a path of names. -/
theorem isNamePath_relativePath {e : Enclosing} (he : e.IsSpelled) {p : Text} (h : IsNamePath p) :
    relativePath p e.itemVar = [] ∨ IsNamePath (relativePath p e.itemVar) := by
  by_cases hown : IsOwnWord e.name (firstName p).1
  · rw [relativePath_eq_of_own h hown]
    rcases IsNamePath.firstName_cases h with ⟨-, hfirst⟩ | ⟨a, t, -, -, ht, hfirst⟩
    · exact .inl (by rw [hfirst])
    · exact .inr (by rwa [hfirst])
  · rw [relativePath_eq_of_foreign he h hown]
    exact .inr h

/-- What the path of an array is in the template. -/
def inTemplate (loop : Option Enclosing) (path : Text) : Text :=
  match loop with
  | some e => nameItem e.path e.item (absolute loop path)
  | none => path

/-- A path that begins with a word for the item begins with what the loop calls its item. -/
theorem inTemplate_own {e : Enclosing} {p : Text} (h : IsNamePath p)
    (hown : IsOwnWord e.name (firstName p).1) :
    inTemplate (some e) p =
      if (firstName p).2 = [] then e.item else e.item ++ '.' :: (firstName p).2 := by
  rcases IsNamePath.firstName_cases h with ⟨ha, hfirst⟩ | ⟨a, t, rfl, ha, ht, hfirst⟩
  · rw [hfirst] at hown ⊢
    have hword := isItemWord_iff.mpr hown
    have hpath := continuedPath_word hword (by rwa [String.toList_ofList]) e.path
    rw [String.toList_ofList] at hpath
    change nameItem e.path e.item (continuedPath p e.path e.itemVar) = _
    rw [hpath, if_pos rfl, ← representative_eq, nameItem_representative]
  · rw [hfirst] at hown ⊢
    have hword := isItemWord_iff.mpr hown
    have hpath := continuedPath_field hword (by rwa [String.toList_ofList]) ht e.path
    rw [String.toList_ofList] at hpath
    have hbracket : ']' ∉ '.' :: t := by simp [ht.not_mem (c := ']') (by decide) (by decide)]
    have hsplit : e.path ++ '.' :: '[' :: '0' :: ']' :: '.' :: t =
        representative e.path ++ '.' :: t := by simp [representative_eq]
    change nameItem e.path e.item (continuedPath (a ++ '.' :: t) e.path e.itemVar) = _
    rw [hpath, hsplit, nameItem_append hbracket, nameItem_representative, if_neg ht.ne_nil]

/-- Any other path stays. -/
theorem inTemplate_foreign {e : Enclosing} (he : e.IsSpelled) {p : Text} (h : IsNamePath p)
    (hforeign : ¬ IsOwnWord e.name (firstName p).1) : inTemplate (some e) p = p := by
  have hitemless : Itemless p := itemless_of_bracket_not_mem (h.not_mem (by decide) (by decide))
  have habsolute : absolute (some e) p = p := by
    change continuedPath p e.path e.itemVar = p
    rw [continuedPath, relativePath_eq_of_foreign he h hforeign, if_pos h.trim_eq.symm]
  rw [inTemplate, habsolute, hitemless.nameItem]

/-- In the template, a path that is the loop's own begins with the name of its item. -/
theorem firstName_inTemplate {e : Enclosing} (he : e.IsSpelled) {p : Text} (h : IsNamePath p)
    (hown : IsOwnWord e.name (firstName p).1) :
    firstName (inTemplate (some e) p) = (e.item, (firstName p).2) := by
  have hdot : '.' ∉ e.item := he.isIdentifier_item.not_mem (by decide)
  rw [inTemplate_own h hown]
  split
  · next hnil => rw [firstName_name hdot, hnil]
  · exact firstName_field hdot _

/-- A path of names is one in the template. -/
theorem isNamePath_inTemplate {loop : Option Enclosing} {loops : List (Option Text)}
    (h : Encloses loop loops) {p : Text} (hp : IsNamePath p) : IsNamePath (inTemplate loop p) := by
  cases h with
  | root => exact hp
  | within e outer he =>
    by_cases hown : IsOwnWord e.name (firstName p).1
    · rw [inTemplate_own hp hown]
      rcases IsNamePath.firstName_cases hp with ⟨ha, hfirst⟩ | ⟨a, t, rfl, ha, ht, hfirst⟩
      · rw [hfirst, if_pos rfl]
        exact .name he.isIdentifier_item
      · rw [hfirst, if_neg ht.ne_nil]
        exact .field he.isIdentifier_item ht
    · rwa [inTemplate_foreign he hp hown]

/-- From the root of the data, a path of names is joined by dots and positions. -/
theorem isJoined_absolute {loop : Option Enclosing} {loops : List (Option Text)}
    (h : Encloses loop loops) {p : Text} (hp : IsNamePath p) : IsJoined (absolute loop p) := by
  cases h with
  | root => exact hp.isJoined
  | within e outer he =>
    have hrelative : IsJoined (relativePath p e.itemVar) := fun c hc =>
      hp.isJoined c (mem_of_mem_relativePath hc)
    have hlit : IsJoined ".[0]".toList := by unfold IsJoined; decide
    have hitem : IsJoined (e.path ++ ".[0]".toList) := fun c hc =>
      (List.mem_append.mp hc).elim (he.isJoined c) (hlit c)
    change IsJoined (continuedPath p e.path e.itemVar)
    unfold continuedPath
    dsimp only
    split_ifs
    · exact hp.isJoined
    · exact hitem
    · intro c hc
      rcases List.mem_append.mp hc with hc | hc
      · exact hitem c hc
      · rcases List.mem_cons.mp hc with rfl | hc
        · exact .inr (by simp)
        · exact hrelative c hc

/-- The loop of a tree around what is inside it. -/
theorem Encloses.body {loop : Option Enclosing} {loops : List (Option Text)} (h : Encloses loop loops)
    {array : ArrayPath} {itemVar : Option PlainName} (harray : IsNamePath array.text)
    (hvar : ∀ v ∈ itemVar.map PlainName.text, IsIdentifier v) :
    Encloses (some (Tree.enclosing loop array itemVar)) (itemVar.map PlainName.text :: loops) := by
  have hname : (Tree.enclosing loop array itemVar).name = itemVar.map PlainName.text := by
    rw [Enclosing.name, Tree.enclosing, Option.map_map]
    rfl
  rw [← hname]
  refine .within _ _ ⟨isJoined_absolute h harray, fun v hv => ?_⟩
  obtain ⟨w, hw, rfl⟩ := Option.map_eq_some_iff.mp hv
  exact hvar _ (by rw [hw]; rfl)

/-! ### The body of a draft -/

/-- A body in a loop with its item named. -/
def named (loop : Option Enclosing) (b : Content) : Content :=
  match loop with
  | some e => b.map id (nameItem e.path e.item)
  | none => b

/-- Items are named in contents side by side as in each of them. -/
theorem named_append (loop : Option Enclosing) (b c : Content) :
    named loop (b.append c) = (named loop b).append (named loop c) := by
  cases loop with
  | none => rfl
  | some e => exact Content.map_append _ b c

/-- What a draft is compiled to in a loop. -/
def Draft.body (loop : Option Enclosing) (d : Draft) : Content := named loop d.outline.content

section Body

variable (loop : Option Enclosing)

theorem body_done : Draft.done.body loop = .text [] := by
  cases loop <;> rfl

/-- The content of drafts side by side is that of the one and then of the other. -/
theorem body_append (d e : Draft) : (d.append e).body loop = (d.body loop).append (e.body loop) := by
  rw [Draft.body, Draft.append, Outline.content_append, named_append]
  rfl

/-- The content of a run of text is the text. -/
theorem body_run (t : Text) (plain : '<' ∉ t) : (Draft.run t plain).body loop = .text t := by
  cases loop <;> simp [Draft.body, Draft.run, Outline.content, named, Content.map]

/-- The content of a reference is the reference. -/
theorem body_reference {path : Text} (plain : '<' ∉ path) (hpath : '[' ∉ path) :
    (Draft.reference path plain).body loop = .reference [] path (.text []) := by
  cases loop with
  | none => rfl
  | some e =>
    have hitemless : nameItem e.path e.item path = path :=
      (itemless_of_bracket_not_mem hpath).nameItem e.item
    simp [Draft.body, Draft.reference, Outline.content, named, Content.map, hitemless]

/-- The content of an element is that of its inside between its tags. -/
theorem body_element (tag : TagName) (attributes : List Property) (inside : Draft) :
    (Tree.elementDraft tag attributes inside).body loop =
      (Content.append (if Markup.isVoid tag.name then .text [] else inside.body loop)
        (.text (Tree.shell tag attributes).closing)).prepend (Tree.shell tag attributes).opening := by
  have htext : ∀ t, named loop (.text t) = .text t := fun t => by cases loop <;> rfl
  have hprepend : ∀ t b, named loop (Content.prepend t b) = (named loop b).prepend t := fun t b => by
    have happend := named_append loop (.text t) b
    rwa [htext] at happend
  have hinside : ∀ o : Outline, named loop (Outline.element (Tree.shell tag attributes) o .done).content =
      ((named loop o.content).append (.text (Tree.shell tag attributes).closing)).prepend
        (Tree.shell tag attributes).opening := fun o => by
    simp only [Outline.content, Content.append_text_nil, hprepend, named_append, htext]
  unfold Tree.elementDraft Draft.body
  split_ifs
  · rw [hinside, Outline.content, htext]
  · exact hinside inside.outline

variable {condition c : Text} (hpaths : ∀ x ∈ Condition.splitConjuncts c, IsNamePath (conjunctPath x).2)

include hpaths

/-- The conjuncts of a conjunction have paths without positions and braces. -/
private theorem unpositioned : ∀ x ∈ Condition.splitConjuncts c,
    '\x7d' ∉ (conjunctPath x).2 ∧ '[' ∉ (conjunctPath x).2 := fun x hx =>
  ⟨(hpaths x hx).not_mem (by decide) (by decide), (hpaths x hx).not_mem (by decide) (by decide)⟩

/-- Items are named in the blocks of a condition as in the body. -/
private theorem named_enclose (b : Content) :
    named loop (b.enclose (Condition.splitConjuncts c)) =
      (named loop b).enclose (Condition.splitConjuncts c) := by
  cases loop with
  | none => rfl
  | some e => exact Content.map_enclose (unpositioned hpaths) _ _

private theorem named_encloseWith (b d : Content) :
    named loop (d.encloseWith b (Condition.splitConjuncts c)) =
      (named loop d).encloseWith (named loop b) (Condition.splitConjuncts c) := by
  cases loop with
  | none => rfl
  | some e => exact Content.map_encloseWith (unpositioned hpaths) _ _

variable (hc : Condition.validateText (unwrapped condition) = .ok c)

include hc

/-- The content of a region under a condition is its content in the blocks of the condition. -/
theorem body_underCondition (d : Draft) : ((Regions.plain d).underCondition condition).body loop =
    (d.body loop).enclose (Condition.splitConjuncts c) := by
  rw [Draft.body, Regions.underCondition, Outline.content, Outline.content, Content.append_text_nil,
    Content.underCondition, hc]
  exact named_enclose loop hpaths _

/-- The content of two regions under a condition, with the alternative in every block. -/
theorem body_underConditionElse (before alternative after : Draft) :
    ((Regions.split before alternative after).underCondition condition).body loop =
      (alternative.body loop).encloseWith ((before.body loop).append (after.body loop))
        (Condition.splitConjuncts c) := by
  rw [Draft.body, Regions.underCondition, Outline.content, Outline.content, Content.append_text_nil,
    Content.underConditionElse, hc]
  refine (named_encloseWith loop hpaths _ _).trans ?_
  rw [named_append]
  rfl

end Body

section Loop

variable {loop : Option Enclosing} {loops : List (Option Text)} (h : Encloses loop loops)
  {array : ArrayPath} {itemVar : Option PlainName}
  (hvar : ∀ v ∈ itemVar.map PlainName.text, IsIdentifier v)

include h hvar

/-- The loop of a tree stands in the template over its array as it is there. -/
theorem body_loop (reads : List Text) {d : Draft}
    (hd : (d.body (some (Tree.enclosing loop array itemVar))).IsNamed) :
    Draft.body loop ⟨reads, .loop (Tree.head loop array itemVar) d.outline .done⟩ =
      .loop [] (inTemplate loop array.text) (itemVar.map PlainName.text)
        (d.body (some (Tree.enclosing loop array itemVar))) (.text []) := by
  have hhead : (Tree.head loop array itemVar).itemVar = itemVar.map PlainName.text := by
    cases itemVar with
    | none => rfl
    | some v =>
      have hne : v.name.toList ≠ [] := (hvar _ rfl).ne_nil
      simp [Tree.head, PlainName.text, Option.filter, hne]
  have hname : (Tree.enclosing loop array itemVar).name = itemVar.map PlainName.text := by
    rw [Enclosing.name, Tree.enclosing, Option.map_map]
    rfl
  have hcontent : Outline.content (.loop (Tree.head loop array itemVar) d.outline .done) =
      .loop [] (absolute loop array.text) (itemVar.map PlainName.text)
        (d.body (some (Tree.enclosing loop array itemVar))) (.text []) := by
    rw [Outline.content, hhead, Draft.body, named, Enclosing.item, hname]
    rfl
  rw [Draft.body, hcontent]
  cases h with
  | root => rfl
  | within e outer he =>
    -- the name for the item is no path, so that naming the outer item leaves it
    have hitem : (itemVar.map PlainName.text).map (nameItem e.path e.item) =
        itemVar.map PlainName.text := by
      cases hv : itemVar.map PlainName.text with
      | none => rfl
      | some v =>
        have hitemless : Itemless v :=
          itemless_of_bracket_not_mem ((hvar v hv).not_mem (by decide))
        rw [Option.map_some, hitemless.nameItem]
    rw [named, Content.map, hd.map_eq, hitem]
    rfl

end Loop

/-! ### The body of a tree -/

/-- A draft whose reads do not fail, whose loops can be lowered one by one, and whose body can be read
back. -/
structure IsCompiled (loop : Option Enclosing) (d : Draft) : Prop where
  isNamePath_of_mem : ∀ p ∈ d.reads, IsNamePath p
  isJoined : d.outline.EveryLoop fun head => IsJoined head.array
  isNamed : (d.body loop).IsNamed

/-- All drafts of what the children of a node come to have a property. -/
def Regions.All (P : Draft → Prop) : Regions → Prop
  | .plain d => P d
  | .split before alternative after => P before ∧ P alternative ∧ P after

section Regions

variable {P : Draft → Prop} (happend : ∀ {d e}, P d → P e → P (d.append e)) {r s : Regions}

include happend

/-- What holds of every region and is kept side by side holds of the whole. -/
theorem Regions.All.whole (h : r.All P) : P r.whole := by
  cases r with
  | plain d => exact h
  | split before alternative after => exact happend h.1 (happend h.2.1 h.2.2)

theorem Regions.All.append (hr : r.All P) (hs : s.All P) : (r.append s).All P := by
  have hwhole := Regions.All.whole happend hs
  cases r with
  | plain d =>
    cases s with
    | plain e => exact happend hr hs
    | split before alternative after => exact ⟨happend hr hs.1, hs.2⟩
  | split before alternative after => exact ⟨hr.1, hr.2.1, happend hr.2.2 hwhole⟩

end Regions

namespace IsCompiled

variable {loop : Option Enclosing} {loops : List (Option Text)} {d e : Draft}

/-- Compiled drafts side by side are compiled. -/
theorem append (hd : IsCompiled loop d) (he : IsCompiled loop e) : IsCompiled loop (d.append e) := by
  refine ⟨?_, Outline.everyLoop_append.mpr ⟨hd.isJoined, he.isJoined⟩, ?_⟩
  · exact List.forall_mem_append.mpr ⟨hd.isNamePath_of_mem, he.isNamePath_of_mem⟩
  · rw [body_append]
    exact Content.isNamed_append.mpr ⟨hd.isNamed, he.isNamed⟩

theorem done : IsCompiled loop .done := by
  refine ⟨by simp [Draft.done], trivial, ?_⟩
  rw [body_done]
  trivial

/-- A run of text is compiled. -/
theorem run (t : Text) (plain : '<' ∉ t) : IsCompiled loop (.run t plain) := by
  refine ⟨by simp [Draft.run], trivial, ?_⟩
  rw [body_run]
  trivial

/-- A reference without positions is compiled. -/
theorem reference {path : Text} (plain : '<' ∉ path) (hpath : IsReference path ∧ '[' ∉ path) :
    IsCompiled loop (.reference path plain) := by
  refine ⟨by simp [Draft.reference], trivial, ?_⟩
  rw [body_reference loop plain hpath.2]
  exact ⟨hpath, trivial⟩

/-- An element with a compiled inside is compiled; a void one needs none. -/
theorem element (tag : TagName) (attributes : List Property)
    (h : Markup.isVoid tag.name = false → IsCompiled loop d) :
    IsCompiled loop (Tree.elementDraft tag attributes d) := by
  refine ⟨?_, ?_, ?_⟩
  · unfold Tree.elementDraft
    split_ifs with hvoid
    · simp
    · exact (h (by simpa using hvoid)).isNamePath_of_mem
  · unfold Tree.elementDraft
    split_ifs with hvoid
    · exact ⟨trivial, trivial⟩
    · exact ⟨(h (by simpa using hvoid)).isJoined, trivial⟩
  · rw [body_element, Content.isNamed_prepend, Content.isNamed_append]
    refine ⟨?_, trivial⟩
    split_ifs with hvoid
    · trivial
    · exact (h (by simpa using hvoid)).isNamed

/-- Compiled regions under a conjunction are compiled. -/
theorem underCondition {r : Regions} (h : r.All (IsCompiled loop)) {condition : Text}
    (hcondition : IsConjunction condition) : IsCompiled loop (r.underCondition condition) := by
  obtain ⟨c, -, hc, hpaths⟩ := hcondition.exists_conjuncts
  have hunpositioned := unpositioned hpaths
  cases r with
  | plain d =>
    refine ⟨h.isNamePath_of_mem, ⟨h.isJoined, trivial⟩, ?_⟩
    rw [body_underCondition loop hpaths hc]
    exact Content.IsNamed.enclose hunpositioned h.isNamed
  | split before alternative after =>
    obtain ⟨hbefore, halternative, hafter⟩ := h
    refine ⟨?_, ⟨hbefore.isJoined, halternative.isJoined, hafter.isJoined, trivial⟩, ?_⟩
    · exact List.forall_mem_append.mpr ⟨hbefore.isNamePath_of_mem,
        List.forall_mem_append.mpr ⟨halternative.isNamePath_of_mem, hafter.isNamePath_of_mem⟩⟩
    rw [body_underConditionElse loop hpaths hc]
    exact Content.IsNamed.encloseWith hunpositioned halternative.isNamed
      (Content.isNamed_append.mpr ⟨hbefore.isNamed, hafter.isNamed⟩)

/-- A compiled draft in a loop over a path of names is compiled. -/
theorem each (h : Encloses loop loops) {array : ArrayPath} {itemVar : Option PlainName}
    (harray : IsNamePath array.text) (hvar : ∀ v ∈ itemVar.map PlainName.text, IsIdentifier v)
    (hd : IsCompiled (some (Tree.enclosing loop array itemVar)) d) :
    IsCompiled loop
      ⟨array.text :: d.reads, .loop (Tree.head loop array itemVar) d.outline .done⟩ := by
  refine ⟨List.forall_mem_cons.mpr ⟨harray, hd.isNamePath_of_mem⟩,
    ⟨isJoined_absolute h harray, hd.isJoined, trivial⟩, ?_⟩
  rw [body_loop h hvar _ hd.isNamed]
  have hpath := isNamePath_inTemplate h harray
  have hword : ∀ c ∈ tagChars, isIdentifierChar c = false ∧ c ≠ '.' := by decide
  refine ⟨⟨⟨fun c hc => hpath.not_mem (hword c hc).1 (hword c hc).2,
    hpath.not_mem (by decide) (by decide)⟩, fun v hv => ?_⟩, hd.isNamed, trivial⟩
  have hname := hvar v hv
  exact ⟨⟨hname.not_mem (by decide), hname.not_mem (by decide)⟩, hname.not_mem (by decide)⟩

end IsCompiled

/-- A path of names that is not written like the tag before an alternative is read as a reference. -/
theorem IsNamePath.isReference {p : Text} (h : IsNamePath p) (helse : p ≠ "else".toList) :
    IsReference p ∧ '[' ∉ p := by
  have hhead : ∀ {c : Char}, isIdentifierChar c = false → c ≠ '.' → p.head? ≠ some c :=
    fun hc hdot he => h.not_mem hc hdot (List.mem_of_head? he)
  exact ⟨⟨h.not_mem (by decide) (by decide), TemplateTag.read_of_head? (hhead (by decide) (by decide))
    (hhead (by decide) (by decide)) helse⟩, h.not_mem (by decide) (by decide)⟩

/-- The path of a part of the item is read as a reference. -/
theorem isReference_itemPath {name : PlainName} (e : Enclosing) (h : IsNamePath name.text) :
    IsReference (Tree.itemPath name e) ∧ '[' ∉ Tree.itemPath name e := by
  have hrelative : ∀ {c : Char}, isIdentifierChar c = false → c ≠ '.' →
      c ∉ relativePath name.name.toList e.itemVar := fun hc hdot hmem =>
    h.not_mem hc hdot (mem_of_mem_relativePath hmem)
  unfold Tree.itemPath
  dsimp only
  split_ifs
  · decide
  · have hlit : "this.".toList = ['t', 'h', 'i', 's', '.'] := by decide
    refine ⟨⟨?_, TemplateTag.read_of_head? ?_ ?_ ?_⟩, ?_⟩
    · simp [hlit, hrelative (c := '\x7d') (by decide) (by decide)]
    · simp [hlit]
    · simp [hlit]
    · simp [hlit]
    · simp [hlit, hrelative (c := '[') (by decide) (by decide)]

mutual

/-- **Trees.** A tree that looks up paths of names is compiled loop by loop, to a body that can be read
back. -/
theorem isCompiled_regions : (t : Tree) → ∀ {loop : Option Enclosing} {loops : List (Option Text)},
    Encloses loop loops → (∀ l ∈ t.lookups loops, IsNamed l) →
      (t.regions loop).All (IsCompiled loop)
  | .text _, _, _, _, _ | .int _, _, _, _, _ | .float _, _, _, _, _ => by
    simp only [Tree.regions, Regions.All, Tree.shown]
    exact .run _ _
  | .nothing, _, _, _, _ | .truth _, _, _, _, _ => by
    simp only [Tree.regions, Regions.All]
    exact .done
  | .list items, _, _, h, hn => by
    simp only [Tree.lookups] at hn
    simpa only [Tree.regions] using isCompiled_regionsAll items h hn
  | .fragment children, _, _, h, hn => by
    simp only [Tree.lookups] at hn
    simp only [Tree.regions]
    exact Regions.All.whole IsCompiled.append (isCompiled_regionsAll children h hn)
  | .element tag attributes children, _, _, h, hn => by
    simp only [Tree.lookups] at hn
    simp only [Tree.regions]
    refine IsCompiled.element tag attributes fun hvoid => ?_
    rw [hvoid, if_neg (by simp)] at hn
    exact Regions.All.whole IsCompiled.append (isCompiled_regionsAll children h hn)
  | .ifThen condition children, _, _, h, hn => by
    simp only [Tree.lookups, List.forall_mem_cons] at hn
    simp only [Tree.regions]
    exact IsCompiled.underCondition (isCompiled_regionsAll children h hn.2) hn.1
  | .otherwise children, _, _, h, hn => by
    simp only [Tree.lookups] at hn
    simp only [Tree.regions]
    exact ⟨.done, Regions.All.whole IsCompiled.append (isCompiled_regionsAll children h hn), .done⟩
  | .each array itemVar children, _, _, h, hn => by
    simp only [Tree.lookups, List.forall_mem_cons] at hn
    obtain ⟨⟨harray, hvar⟩, hn⟩ := hn
    simp only [Tree.regions]
    exact IsCompiled.each h harray hvar (Regions.All.whole IsCompiled.append
      (isCompiled_regionsAll children (h.body harray hvar) hn))
  | .val name value, _, _, .root, hn => by
    cases hvalue : value.isNothing with
    | true =>
      simp only [Tree.lookups, hvalue, List.forall_mem_cons] at hn
      simp only [Tree.regions, hvalue]
      exact IsCompiled.reference _ (IsNamePath.isReference hn.1.1 (hn.1.2 rfl))
    | false =>
      simp only [Tree.lookups, hvalue, List.forall_mem_cons] at hn
      simp only [Tree.regions, hvalue]
      exact Regions.All.whole IsCompiled.append (isCompiled_regions value .root hn.2)
  | .val name value, _, _, .within e outer he, hn => by
    simp only [Tree.lookups, List.forall_mem_cons] at hn
    simp only [Tree.regions]
    exact IsCompiled.reference _ (isReference_itemPath e hn.1.1)

/-- Trees side by side are compiled if their lookups are named. -/
theorem isCompiled_regionsAll : (ts : List Tree) → ∀ {loop : Option Enclosing} {loops : List (Option Text)},
    Encloses loop loops → (∀ l ∈ Tree.lookupsAll loops ts, IsNamed l) →
      (Tree.regionsAll loop ts).All (IsCompiled loop)
  | [], _, _, _, _ => by
    simp only [Tree.regionsAll]
    exact IsCompiled.done
  | t :: rest, _, _, h, hn => by
    simp only [Tree.lookupsAll, List.forall_mem_append] at hn
    simp only [Tree.regionsAll]
    exact Regions.All.append IsCompiled.append (isCompiled_regions t h hn.1)
      (isCompiled_regionsAll rest h hn.2)

end

end Stencil.Component
