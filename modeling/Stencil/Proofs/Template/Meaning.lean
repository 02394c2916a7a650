import Stencil.Component.Session
import Stencil.Path
import Stencil.Proofs.Template.Scope

/-!
# What a template shows

`Content.shown` says what a template shows. Where its paths lead and how values are printed is left open;
in a template that is filled in with data, a path begins at the data outside of loops, and in a loop at
its item, unless the first name is `this` or the name of the item of a loop around it (`valueAt`).

A template shows the texts of its parts one after the other (`shown_append`). A body inside the blocks of
conjuncts is shown exactly if all of them hold, and otherwise, if there is one, the alternative that every
block has (`shown_enclose`, `shown_encloseWith`). What is shown depends only on where the paths of the
template lead (`shown_congr`).
-/

namespace Stencil.Template

open Text

/-! ### Paths -/

/-- The first name of a path, and the path behind it. -/
def firstName (path : Text) : Text × Text := (cut? ['.'] path).getD (path, [])

/-- A word without dots is a first name with nothing behind it. -/
theorem firstName_name {a : Text} (h : '.' ∉ a) : firstName a = (a, []) := by
  have hnone : cut? ['.'] a = none :=
    cut?_eq_none (by decide) (everyTail_of_absent fun hi => h (hi.subset (by simp)))
  rw [firstName, hnone, Option.getD_none]

/-- The first name ends at the first dot. -/
theorem firstName_field {a : Text} (h : '.' ∉ a) (t : Text) : firstName (a ++ '.' :: t) = (a, t) := by
  have hcut : cut? ['.'] (a ++ (['.'] ++ t)) = some (a, t) :=
    cut?_append (everyTail_of_forall_mem fun c hc s hp => by
      have hsame : '.' = c := (List.cons_prefix_cons.mp hp).1
      exact h (hsame ▸ hc))
  rw [List.singleton_append] at hcut
  rw [firstName, hcut, Option.getD_some]

/-- **Paths.** The value of a path inside loops, given by the names and values of their items, innermost
first. -/
def valueAt (data : Value) (items : List (Option Text × Value)) (path : Text) : Value :=
  match items with
  | [] => data.resolve path
  | (_, item) :: _ =>
    match (itemOf (items.map Prod.fst) (firstName path).1).bind (items[·]?) with
    | some (_, named) => named.resolve (firstName path).2
    | none => item.resolve path

/-- A word for the item of a loop: `this`, or the name of the item. -/
def IsOwnWord (name : Option Text) (word : Text) : Prop := word = "this".toList ∨ name = some word

instance (name : Option Text) : DecidablePred (IsOwnWord name) := fun word =>
  inferInstanceAs (Decidable (word = "this".toList ∨ name = some word))

/-- A path that begins with a word for the item of the innermost loop is one into this item. -/
theorem valueAt_own {name : Option Text} {path : Text} (h : IsOwnWord name (firstName path).1)
    (data item : Value) (outer : List (Option Text × Value)) :
    valueAt data ((name, item) :: outer) path = item.resolve (firstName path).2 := by
  have hitem : itemOf (((name, item) :: outer).map Prod.fst) (firstName path).1 = some 0 := by
    change itemOf ([] ++ name :: outer.map Prod.fst) _ = some ([] : List (Option Text)).length
    refine itemOf_append.mpr ?_
    by_cases hthis : (firstName path).1 = "this".toList
    · exact .inl ⟨hthis, rfl⟩
    · exact .inr ⟨hthis, h.resolve_left hthis, List.not_mem_nil⟩
  rw [valueAt, hitem]
  rfl

/-- Any other path leads into the item of the innermost loop further out that has its first name, and
from the item of the innermost loop on if there is none. -/
theorem valueAt_of_not_own {name : Option Text} {path : Text}
    (h : ¬ IsOwnWord name (firstName path).1) (data item : Value)
    (outer : List (Option Text × Value)) :
    valueAt data ((name, item) :: outer) path =
      ((outer.find? fun own => own.1 == some (firstName path).1).map fun own =>
        own.2.resolve (firstName path).2).getD (item.resolve path) := by
  obtain ⟨hthis, hname⟩ := not_or.mp h
  have hfind : ∀ items : List (Option Text × Value),
      ((items.map Prod.fst).findIdx? (· == some (firstName path).1)).bind (items[·]?) =
        items.find? fun own => own.1 == some (firstName path).1 := by
    intro items
    rw [List.findIdx?_map, List.find?_eq_bind_findIdx?_getElem?]
    rfl
  have hword : (name == some (firstName path).1) = false := by simpa using hname
  have hitem := hfind ((name, item) :: outer)
  rw [List.find?_cons, hword] at hitem
  rw [valueAt, itemOf, if_neg hthis, hitem]
  cases outer.find? fun own => own.1 == some (firstName path).1 <;> rfl

/-! ### Texts one behind the other -/

/-- The text of one work with that of another behind it. -/
def followed (x y : Pass Text) : Pass Text := do
  let t ← x
  let u ← y
  pure (t ++ u)

section Followed

variable (x y z : Pass Text) (t u : Text)

/-- Texts that may fail are put together in any grouping. -/
theorem followed_assoc : followed (followed x y) z = followed x (followed y z) := by
  simp only [followed, bind_assoc, pure_bind, List.append_assoc]

@[simp] theorem followed_nil : followed x (pure []) = x := by
  simp [followed]

@[simp] theorem nil_followed : followed (pure []) x = x := by
  simp [followed]

/-- Texts that do not fail are put one behind the other. -/
theorem pure_followed_pure : followed (pure t) (pure u) = pure (t ++ u) := by
  simp [followed]

end Followed

/-- The texts of all items, one behind the other. -/
def shownEach (body : Value → Pass Text) : List Value → Pass Text
  | [] => pure []
  | item :: rest => followed (body item) (shownEach body rest)

/-! ### Templates -/

/-- Whether the block of a conjunct shows its body, where paths lead to what is found. -/
def shows (find : List (Option Text × Value) → Text → Value) (items : List (Option Text × Value))
    (isNegated : Bool) (path : Text) : Bool :=
  (find items path).isTruthy != isNegated

/-- What a condition shows depends on what is found at its path only. -/
theorem shows_congr {find found : List (Option Text × Value) → Text → Value}
    {items : List (Option Text × Value)} {path : Text} (isNegated : Bool)
    (h : find items path = found items path) :
    shows find items isNegated path = shows found items isNegated path := by
  rw [shows, shows, h]

namespace Content

section Shown

variable (print : Value → Pass Text) (find : List (Option Text × Value) → Text → Value)

/-- **Templates.** What a template shows inside loops, given by the names and values of their items,
innermost first. What is missing or nothing prints nothing, and a loop over what is no list repeats its
body for no item. -/
def shown : Content → List (Option Text × Value) → Pass Text
  | text t, _ => pure t
  | reference t p r, items =>
    let v := find items p
    followed (pure t) (followed (if v.isNothing then pure [] else print v) (r.shown items))
  | loop t a v b r, items =>
    followed (pure t)
      (followed (shownEach (fun item => b.shown ((v, item) :: items)) ((find items a).items?.getD []))
        (r.shown items))
  | conditional t n p b r, items =>
    followed (pure t)
      (followed (if shows find items n p then b.shown items else pure []) (r.shown items))
  | choice t n p b a r, items =>
    followed (pure t)
      (followed (if shows find items n p then b.shown items else a.shown items) (r.shown items))

variable (b c : Content) (t : Text) (items : List (Option Text × Value))

/-- Text in front is shown first. -/
theorem shown_prepend :
    (b.prepend t).shown print find items = followed (pure t) (b.shown print find items) := by
  cases b <;> simp only [prepend, shown, ← followed_assoc, pure_followed_pure]

/-- The parts of a template are shown one after the other. -/
theorem shown_append : (b.append c).shown print find items =
    followed (b.shown print find items) (c.shown print find items) := by
  induction b with
  | text t => exact shown_prepend print find c t items
  | reference t p r ih => simp only [append, shown, ih, followed_assoc]
  | loop t a v i r _ ih => simp only [append, shown, ih, followed_assoc]
  | conditional t n p i r _ ih => simp only [append, shown, ih, followed_assoc]
  | choice t n p i a r _ _ ih => simp only [append, shown, ih, followed_assoc]

/-- **Conjunctions.** A body inside the blocks of conjuncts is shown if all of them hold. -/
theorem shown_enclose (conjuncts : List Text) :
    (b.enclose conjuncts).shown print find items =
      if conjuncts.all fun x => shows find items (conjunctPath x).1 (conjunctPath x).2 then
        b.shown print find items
      else pure [] := by
  induction conjuncts with
  | nil => rfl
  | cons x xs ih =>
    simp only [enclose, shown, ih, List.all_cons, nil_followed, followed_nil, Bool.and_eq_true]
    split_ifs <;> simp_all

/-- **Conjunctions with an alternative.** The alternative that every block has is shown if some conjunct
does not hold. -/
theorem shown_encloseWith (conjuncts : List Text) :
    (c.encloseWith b conjuncts).shown print find items =
      if conjuncts.all fun x => shows find items (conjunctPath x).1 (conjunctPath x).2 then
        b.shown print find items
      else c.shown print find items := by
  induction conjuncts with
  | nil => rfl
  | cons x xs ih =>
    simp only [encloseWith, shown, ih, List.all_cons, nil_followed, followed_nil, Bool.and_eq_true]
    split_ifs <;> simp_all

end Shown

/-! ### Paths of templates -/

/-- The paths of a template inside loops, each with the names of the items of all loops around it,
innermost first. -/
def paths (loops : List (Option Text)) : Content → List (List (Option Text) × Text)
  | text _ => []
  | reference _ p r => (loops, p) :: r.paths loops
  | loop _ a v b r => (loops, a) :: (b.paths (v :: loops) ++ r.paths loops)
  | conditional _ _ p b r => (loops, p) :: (b.paths loops ++ r.paths loops)
  | choice _ _ p b a r => (loops, p) :: (b.paths loops ++ (a.paths loops ++ r.paths loops))

section Paths

variable (b c : Content) (loops : List (Option Text))

@[simp] theorem paths_prepend (t : Text) : (b.prepend t).paths loops = b.paths loops := by
  cases b <;> rfl

/-- The paths of contents side by side are those of the one and then of the other. -/
@[simp] theorem paths_append : (b.append c).paths loops = b.paths loops ++ c.paths loops := by
  induction b with
  | text t => exact paths_prepend c loops t
  | _ => simp_all [append, paths]

/-- The paths of a template have nothing to do with its texts. -/
theorem paths_bare : b.bare.paths loops = b.paths loops := by
  unfold bare
  induction b generalizing loops <;> simp_all [map, paths]

variable {b c loops} {x : List (Option Text) × Text} {conjuncts : List Text}

/-- In the blocks of a condition the paths are those of the conjuncts and of the body. -/
theorem mem_paths_enclose : x ∈ (b.enclose conjuncts).paths loops ↔
    x ∈ conjuncts.map (fun c => (loops, (conjunctPath c).2)) ∨ x ∈ b.paths loops := by
  induction conjuncts with
  | nil => simp [enclose]
  | cons c cs ih => simp [enclose, paths, ih, or_assoc]

/-- With an alternative in every block, those of the alternative come along. -/
theorem mem_paths_encloseWith (hconjuncts : conjuncts ≠ []) :
    x ∈ (c.encloseWith b conjuncts).paths loops ↔
      x ∈ conjuncts.map (fun c => (loops, (conjunctPath c).2)) ∨
        x ∈ c.paths loops ∨ x ∈ b.paths loops := by
  induction conjuncts with
  | nil => exact absurd rfl hconjuncts
  | cons d ds ih =>
    cases ds with
    | nil => simp [encloseWith, paths, or_comm]
    | cons e es =>
      have hinner := ih (by simp)
      rw [encloseWith, paths, List.mem_cons, List.mem_append, hinner, List.map_cons, List.mem_cons]
      simp only [paths, List.append_nil, List.map_cons, List.mem_cons]
      tauto

/-- A template shows the same where its paths lead to the same values. -/
theorem shown_congr {print : Value → Pass Text}
    {find found : List (Option Text × Value) → Text → Value} {items : List (Option Text × Value)}
    (h : ∀ x ∈ b.paths (items.map Prod.fst), ∀ own, own.map Prod.fst = x.1 → find own x.2 = found own x.2) :
    b.shown print find items = b.shown print found items := by
  induction b generalizing items with
  | text t => rfl
  | reference t p r ih =>
    simp only [paths, List.forall_mem_cons] at h
    obtain ⟨hpath, hrest⟩ := h
    simp only [shown, hpath items rfl, ih hrest]
  | loop t a v b r ihb ihr =>
    simp only [paths, List.forall_mem_cons, List.forall_mem_append] at h
    obtain ⟨hpath, hbody, hrest⟩ := h
    have hshown : ∀ item, b.shown print find ((v, item) :: items) =
        b.shown print found ((v, item) :: items) := fun item => ihb hbody
    simp only [shown, hpath items rfl, hshown, ihr hrest]
  | conditional t n p b r ihb ihr =>
    simp only [paths, List.forall_mem_cons, List.forall_mem_append] at h
    obtain ⟨hpath, hbody, hrest⟩ := h
    simp only [shown, shows_congr n (hpath items rfl), ihb hbody, ihr hrest]
  | choice t n p b a r ihb iha ihr =>
    simp only [paths, List.forall_mem_cons, List.forall_mem_append] at h
    obtain ⟨hpath, hbody, halternative, hrest⟩ := h
    simp only [shown, shows_congr n (hpath items rfl), ihb hbody, iha halternative, ihr hrest]

end Paths

end Content

end Stencil.Template
