import Stencil.Proofs.Component.Lookups

/-!
# Paths that leave the item

A path in a loop is local if its first name is a word for the item of this loop. The terms of conditions
and the paths of arrays that are not local are the strays of a tree.

The main statement is `mem_paths_body_iff`: **the strays of a tree are those of its template**, in the
same loops. A path of the tree that is local may be another one in the template, but is local there.
-/

namespace Stencil.Component

open Text Template Render

/-! ### Local paths -/

/-- A path that begins, inside a loop, with a word for the item of this loop. -/
def IsLocalPath (loops : List (Option Text)) (path : Text) : Prop :=
  ∀ name ∈ loops.head?, IsOwnWord name (firstName path).1

instance (loops : List (Option Text)) : DecidablePred (IsLocalPath loops) := fun _ =>
  inferInstanceAs (Decidable (∀ name ∈ loops.head?, IsOwnWord name _))

/-- The terms of a condition, or the path of an array. -/
def Lookup.paths : Lookup → List Text
  | .condition text => ((Condition.validateText text).toOption.map Condition.terms).getD []
  | .array path _ => [path]
  | .reference _ | .given => []

/-- Paths of lookups, with the loops that these are in. -/
def pathsOf (lookups : List (List (Option Text) × Lookup)) : List (List (Option Text) × Text) :=
  lookups.flatMap fun l => l.2.paths.map (l.1, ·)

/-- The terms of the conditions and the paths of the arrays of a tree, each with the names of the items of
all loops around it, innermost first. -/
def Tree.paths (t : Tree) : List (List (Option Text) × Text) := pathsOf (t.lookups [])

theorem pathsOf_cons (l : List (Option Text) × Lookup) (ls : List (List (Option Text) × Lookup)) :
    pathsOf (l :: ls) = l.2.paths.map (l.1, ·) ++ pathsOf ls := List.flatMap_cons

theorem pathsOf_append (ls ms : List (List (Option Text) × Lookup)) :
    pathsOf (ls ++ ms) = pathsOf ls ++ pathsOf ms := List.flatMap_append

/-- The paths of lookups by paths of names are paths of names. -/
theorem isNamePath_of_mem_pathsOf {ls : List (List (Option Text) × Lookup)}
    (h : ∀ l ∈ ls, IsNamed l) {x : List (Option Text) × Text} (hx : x ∈ pathsOf ls) :
    IsNamePath x.2 := by
  obtain ⟨⟨loops, l⟩, hl, hpath⟩ := List.mem_flatMap.mp hx
  obtain ⟨p, hp, rfl⟩ := List.mem_map.mp hpath
  cases l with
  | condition text =>
    obtain ⟨-, c, hvalid, hterms⟩ := h _ hl
    rw [Lookup.paths, hvalid] at hp
    exact hterms p hp
  | array path itemVar =>
    obtain rfl : p = path := List.mem_singleton.mp hp
    exact (h _ hl).1
  | reference name => cases hp
  | given => cases hp

/-! ### Local paths of templates -/

/-- The path of a part of the item begins with `this`. -/
theorem firstName_itemPath (name : PlainName) (e : Enclosing) :
    firstName (Tree.itemPath name e) = ("this".toList, relativePath name.text e.itemVar) := by
  have hthis : '.' ∉ "this".toList := by decide
  have hlit : "this.".toList ++ relativePath name.text e.itemVar =
      "this".toList ++ '.' :: relativePath name.text e.itemVar := rfl
  unfold Tree.itemPath
  dsimp only
  split_ifs with hempty
  · rw [firstName_name hthis]
    rw [List.isEmpty_iff] at hempty
    rw [PlainName.text, hempty]
  · change firstName ("this.".toList ++ relativePath name.text e.itemVar) = _
    rw [hlit, firstName_field hthis]

section Stray

variable {loop : Option Enclosing} {loops : List (Option Text)} {x : List (Option Text) × Text}
  (hx : ¬ IsLocalPath x.1 x.2)

include hx

theorem ne_itemPath (name : PlainName) (e : Enclosing) (outer : List (Option Text)) :
    x ≠ (e.name :: outer, Tree.itemPath name e) := by
  rintro rfl
  refine hx fun own hown => ?_
  obtain rfl : e.name = own := Option.some.inj hown
  rw [firstName_itemPath]
  exact .inl rfl

/-- An array that is not in the item of its loop has the same path in the template. -/
theorem eq_inTemplate_iff (h : Encloses loop loops) {p : Text} (hp : IsNamePath p) :
    x = (loops, inTemplate loop p) ↔ x = (loops, p) := by
  cases h with
  | root => rfl
  | within e outer he =>
    by_cases hown : IsOwnWord e.name (firstName p).1
    · refine iff_of_false ?_ ?_
      · rintro rfl
        refine hx fun own hmem => ?_
        obtain rfl : e.name = own := Option.some.inj hmem
        rw [firstName_inTemplate he hp hown]
        exact e.isOwnWord_item
      · rintro rfl
        refine hx fun own hmem => ?_
        obtain rfl : e.name = own := Option.some.inj hmem
        exact hown
    · rw [inTemplate_foreign he hp hown]

end Stray

/-- The paths of the blocks of a condition are its terms. -/
theorem mem_paths_underCondition {condition : Text} (hcondition : IsConjunction condition)
    (loop : Option Enclosing) (loops : List (Option Text)) (r : Regions)
    (x : List (Option Text) × Text) :
    x ∈ ((r.underCondition condition).body loop).paths loops ↔
      x ∈ (Lookup.condition condition).paths.map (loops, ·) ∨ x ∈ (r.whole.body loop).paths loops := by
  obtain ⟨c, hvalid, hunwrapped, hpaths⟩ := hcondition.exists_conjuncts
  have hne := Condition.splitConjuncts_ne_nil c
  have hlookup : (Lookup.condition condition).paths.map (loops, ·) =
      (Condition.splitConjuncts c).map fun c => (loops, (conjunctPath c).2) := by
    rw [Lookup.paths, hvalid, Except.toOption, Option.map_some, Option.getD_some,
      ← Condition.map_conjunctPath hvalid hcondition.1, List.map_map]
    rfl
  rw [hlookup]
  cases r with
  | plain d =>
    rw [body_underCondition loop hpaths hunwrapped, Content.mem_paths_enclose]
    rfl
  | split before alternative after =>
    rw [body_underConditionElse loop hpaths hunwrapped, Content.mem_paths_encloseWith hne,
      Regions.whole, body_append, body_append]
    simp only [Content.paths_append, List.mem_append]
    tauto

/-! ### Trees -/

section Trees

variable {x : List (Option Text) × Text}

mutual

/-- **Trees.** A path that is not local is one of the template exactly if it is one of the tree. -/
theorem mem_paths_body_iff (hx : ¬ IsLocalPath x.1 x.2) : (t : Tree) →
    ∀ {loop : Option Enclosing} {loops : List (Option Text)}, Encloses loop loops →
      (∀ l ∈ t.lookups loops, IsNamed l) →
        (x ∈ ((t.regions loop).whole.body loop).paths loops ↔ x ∈ pathsOf (t.lookups loops))
  | .text _, _, _, _, _ | .int _, _, _, _, _ | .float _, _, _, _, _ => by
    simp only [Tree.lookups, Tree.regions, Regions.whole_plain, Tree.shown, body_run]
    exact Iff.rfl
  | .nothing, _, _, _, _ | .truth _, _, _, _, _ => by
    simp only [Tree.lookups, Tree.regions, Regions.whole_plain, body_done]
    exact Iff.rfl
  | .list items, _, _, h, hn => by
    simp only [Tree.lookups] at hn ⊢
    simp only [Tree.regions]
    exact mem_paths_bodyAll_iff hx items h hn
  | .fragment children, _, _, h, hn => by
    simp only [Tree.lookups] at hn ⊢
    simp only [Tree.regions]
    exact mem_paths_bodyAll_iff hx children h hn
  | .element tag attributes children, _, _, h, hn => by
    simp only [Tree.lookups] at hn ⊢
    simp only [Tree.regions, Regions.whole_plain, body_element, Content.paths_prepend,
      Content.paths_append, Content.paths, List.append_nil]
    split_ifs at hn ⊢
    · exact Iff.rfl
    · exact mem_paths_bodyAll_iff hx children h hn
  | .ifThen condition children, _, _, h, hn => by
    simp only [Tree.lookups, List.forall_mem_cons] at hn
    have ih := mem_paths_bodyAll_iff hx children h hn.2
    simp only [Tree.lookups, Tree.regions, Regions.whole_plain, pathsOf_cons, List.mem_append]
    rw [mem_paths_underCondition hn.1, ih]
  | .otherwise children, _, _, h, hn => by
    simp only [Tree.lookups] at hn ⊢
    simp only [Tree.regions, Regions.whole, Draft.done_append, Draft.append_done]
    exact mem_paths_bodyAll_iff hx children h hn
  | .each array itemVar children, _, _, h, hn => by
    simp only [Tree.lookups, List.forall_mem_cons] at hn
    obtain ⟨⟨harray, hvar⟩, hn⟩ := hn
    have hinner := h.body harray hvar
    have hd := (isCompiled_regionsAll children hinner hn).whole IsCompiled.append
    have ih := mem_paths_bodyAll_iff hx children hinner hn
    simp only [Tree.lookups, Tree.regions, Regions.whole_plain, pathsOf_cons, List.mem_append]
    rw [body_loop h hvar _ hd.isNamed, Content.paths, List.mem_cons, List.mem_append, ih,
      eq_inTemplate_iff hx h harray, Lookup.paths, List.map_singleton, List.mem_singleton, Content.paths]
    simp
  | .val name value, _, _, .root, hn => by
    have hroot : ∀ {p : Text}, x ≠ ([], p) := by
      rintro p rfl
      exact hx nofun
    cases hvalue : value.isNothing with
    | true =>
      simp only [Tree.lookups, hvalue, List.forall_mem_cons] at hn
      have hname := (IsNamePath.isReference hn.1.1 (hn.1.2 rfl)).2
      simp only [Tree.lookups, Tree.regions, hvalue, if_true, Regions.whole_plain]
      rw [body_reference none name.angle_not_mem hname]
      simp [Content.paths, pathsOf, Lookup.paths, hroot]
    | false =>
      simp only [Tree.lookups, hvalue, List.forall_mem_cons] at hn
      simp only [Tree.lookups, Tree.regions, hvalue, Bool.false_eq_true, if_false, Regions.whole_plain]
      exact mem_paths_body_iff hx value .root hn.2
  | .val name value, _, _, .within e outer he, hn => by
    simp only [Tree.lookups, List.forall_mem_cons] at hn
    simp only [Tree.lookups, Tree.regions, Regions.whole_plain]
    rw [body_reference _ _ (isReference_itemPath e hn.1.1).2]
    simp [Content.paths, pathsOf, Lookup.paths, ne_itemPath hx name e outer]

theorem mem_paths_bodyAll_iff (hx : ¬ IsLocalPath x.1 x.2) : (ts : List Tree) →
    ∀ {loop : Option Enclosing} {loops : List (Option Text)}, Encloses loop loops →
      (∀ l ∈ Tree.lookupsAll loops ts, IsNamed l) →
        (x ∈ ((Tree.regionsAll loop ts).whole.body loop).paths loops ↔
          x ∈ pathsOf (Tree.lookupsAll loops ts))
  | [], _, _, _, _ => by
    simp only [Tree.lookupsAll, Tree.regionsAll, Regions.whole_plain, body_done]
    exact Iff.rfl
  | t :: rest, _, _, h, hn => by
    simp only [Tree.lookupsAll, List.forall_mem_append] at hn
    have hfirst := mem_paths_body_iff hx t h hn.1
    have hrest := mem_paths_bodyAll_iff hx rest h hn.2
    simp only [Tree.lookupsAll, Tree.regionsAll, Regions.whole_append, body_append,
      Content.paths_append, pathsOf_append, List.mem_append]
    rw [hfirst, hrest]

end

end Trees

end Stencil.Component
