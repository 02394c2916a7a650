import Stencil.Proofs.Template.Outline

/-!
# Templates as trees

A `Content` is the text of a template as a tree: runs of text with references, loops and conditionals
between them. A run reaches as far as it can, so that two contents put together share one.

Naming the item of a loop works on text, but it can be done part by part: `nameItem_written` says that
**naming the item in the text of a body names it in every run and in every path of the body.** This
needs of the path of the array only that it is bare, without any of the characters that tags are made
with. It is what brings the text that an outline is compiled to, in which items are named again and
again, into the form of a body (`Outline.written_content`).
-/

namespace Stencil.Template

open Text

/-! ### Bodies -/

/-- The name of the helper of a conditional block. -/
def helperName (isNegated : Bool) : Text := if isNegated then "unless".toList else "if".toList

/-- A template as a tree. Every part has the run before it and the parts behind it. -/
inductive Content where
  /-- The last run. -/
  | text (t : Text)
  /-- A reference to a value. -/
  | reference (before path : Text) (rest : Content)
  /-- A loop. -/
  | loop (before array : Text) (itemVar : Option Text) (body rest : Content)
  /-- A conditional block. -/
  | conditional (before : Text) (isNegated : Bool) (path : Text) (body rest : Content)
  /-- A conditional block with an alternative. -/
  | choice (before : Text) (isNegated : Bool) (path : Text) (body alternative rest : Content)
  deriving DecidableEq, Repr

namespace Content

/-- A body behind a run. -/
def prepend (t : Text) : Content → Content
  | text u => text (t ++ u)
  | reference u p r => reference (t ++ u) p r
  | loop u a v b r => loop (t ++ u) a v b r
  | conditional u n p b r => conditional (t ++ u) n p b r
  | choice u n p b a r => choice (t ++ u) n p b a r

/-- One body behind another. -/
def append : Content → Content → Content
  | text t, b => b.prepend t
  | reference t p r, b => reference t p (r.append b)
  | loop t a v i r, b => loop t a v i (r.append b)
  | conditional t n p i r, b => conditional t n p i (r.append b)
  | choice t n p i a r, b => choice t n p i a (r.append b)

/-- The text of a body. -/
def written : Content → Text
  | text t => t
  | reference t p r => t ++ (braced p ++ r.written)
  | loop t a v b r => t ++ (loopOpening a v ++ (b.written ++ (braced "/each".toList ++ r.written)))
  | conditional t n p b r =>
    let block := Block.of (helperName n) p
    t ++ (block.opening ++ (b.written ++ (block.closing ++ r.written)))
  | choice t n p b a r =>
    let block := Block.of (helperName n) p
    t ++ (block.opening ++ (b.written ++ (elseTag ++ (a.written ++ (block.closing ++ r.written)))))

/-- A body with its runs and its paths changed. -/
def map (onRun onPath : Text → Text) : Content → Content
  | text t => text (onRun t)
  | reference t p r => reference (onRun t) (onPath p) (r.map onRun onPath)
  | loop t a v b r =>
    loop (onRun t) (onPath a) (v.map onPath) (b.map onRun onPath) (r.map onRun onPath)
  | conditional t n p b r =>
    conditional (onRun t) n (onPath p) (b.map onRun onPath) (r.map onRun onPath)
  | choice t n p b a r =>
    choice (onRun t) n (onPath p) (b.map onRun onPath) (a.map onRun onPath) (r.map onRun onPath)

/-- Every run of a body has a property. -/
def EveryRun (P : Text → Prop) : Content → Prop
  | text t => P t
  | reference t _ r => P t ∧ r.EveryRun P
  | loop t _ _ b r | conditional t _ _ b r => P t ∧ b.EveryRun P ∧ r.EveryRun P
  | choice t _ _ b a r => P t ∧ b.EveryRun P ∧ a.EveryRun P ∧ r.EveryRun P

instance EveryRun.decidable {P : Text → Prop} [DecidablePred P] :
    (b : Content) → Decidable (b.EveryRun P)
  | .text t => inferInstanceAs (Decidable (P t))
  | .reference t _ r =>
    have : Decidable (r.EveryRun P) := EveryRun.decidable r
    inferInstanceAs (Decidable (P t ∧ _))
  | .loop t _ _ b r | .conditional t _ _ b r =>
    have : Decidable (b.EveryRun P) := EveryRun.decidable b
    have : Decidable (r.EveryRun P) := EveryRun.decidable r
    inferInstanceAs (Decidable (P t ∧ _ ∧ _))
  | .choice t _ _ b a r =>
    have : Decidable (b.EveryRun P) := EveryRun.decidable b
    have : Decidable (a.EveryRun P) := EveryRun.decidable a
    have : Decidable (r.EveryRun P) := EveryRun.decidable r
    inferInstanceAs (Decidable (P t ∧ _ ∧ _ ∧ _))

section Append

variable (b c d : Content) (t u p : Text) (v : Option Text) (n : Bool)

@[simp] theorem prepend_text : (text u).prepend t = text (t ++ u) := rfl

@[simp] theorem prepend_reference :
    (reference u p b).prepend t = reference (t ++ u) p b := rfl

@[simp] theorem prepend_loop : (loop u p v b c).prepend t = loop (t ++ u) p v b c := rfl

@[simp] theorem prepend_conditional :
    (conditional u n p b c).prepend t = conditional (t ++ u) n p b c := rfl

@[simp] theorem prepend_choice :
    (choice u n p b c d).prepend t = choice (t ++ u) n p b c d := rfl

@[simp] theorem prepend_nil : b.prepend [] = b := by
  cases b <;> rfl

@[simp] theorem prepend_prepend : (b.prepend u).prepend t = b.prepend (t ++ u) := by
  cases b <;> simp [prepend]

/-- Text in front of the first part is text in front of both. -/
@[simp] theorem prepend_append : (b.prepend t).append c = (b.append c).prepend t := by
  cases b with
  | text u => exact (prepend_prepend c t u).symm
  | _ => rfl

@[simp] theorem append_text_nil : b.append (.text []) = b := by
  induction b <;> simp_all [append, prepend]

/-- Contents side by side may be grouped in any way. -/
theorem append_assoc : (b.append c).append d = b.append (c.append d) := by
  induction b <;> simp_all [append]

/-- Text in front is written first. -/
@[simp] theorem written_prepend : (b.prepend t).written = t ++ b.written := by
  cases b <;> simp [prepend, written]

/-- Contents side by side are written one behind the other. -/
@[simp] theorem written_append : (b.append c).written = b.written ++ c.written := by
  induction b <;> simp_all [append, written]

variable {b c t}

/-- A property that parts of a text inherit holds of the runs of both contents. -/
theorem EveryRun.of_append {P : Text → Prop} (hP : ∀ {t u}, P (t ++ u) → P t ∧ P u)
    (h : (b.append c).EveryRun P) : b.EveryRun P ∧ c.EveryRun P := by
  induction b with
  | text t =>
    cases c with
    | text u => exact hP h
    | _ => exact ⟨(hP h.1).1, (hP h.1).2, h.2⟩
  | _ => simp_all [append, EveryRun]

/-- What holds of every run still does without the text in front. -/
theorem EveryRun.of_prepend {P : Text → Prop} (hP : ∀ {t u}, P (t ++ u) → P t ∧ P u)
    (h : (b.prepend t).EveryRun P) : b.EveryRun P :=
  (EveryRun.of_append (b := .text t) hP h).2

end Append

/-- What holds of every run may be replaced by what follows from it. -/
theorem EveryRun.imp {P Q : Text → Prop} {b : Content} (h : b.EveryRun P) (hPQ : ∀ t, P t → Q t) :
    b.EveryRun Q := by
  induction b <;> simp_all [EveryRun]

/-- Only what is done to paths matters where the runs stay the same. -/
theorem map_eq_of_everyRun {f g : Text → Text} {b : Content} (h : b.EveryRun fun t => f t = t) :
    b.map f g = b.map id g := by
  induction b <;> simp_all [map, EveryRun]

/-- Paths are changed in contents side by side as in each of them. -/
theorem map_append (g : Text → Text) (b c : Content) :
    (b.append c).map id g = (b.map id g).append (c.map id g) := by
  induction b with
  | text t => cases c <;> simp [append, prepend, map]
  | _ => simp_all [append, map]

/-- Changing the paths leaves the text in front as it is. -/
theorem map_prepend (g : Text → Text) (t : Text) (b : Content) :
    (b.prepend t).map id g = (b.map id g).prepend t := map_append g (.text t) b

/-- Changing the paths leaves the runs as they are. -/
theorem everyRun_map (P : Text → Prop) (g : Text → Text) (b : Content) :
    (b.map id g).EveryRun P ↔ b.EveryRun P := by
  induction b <;> simp_all [map, EveryRun]

/-- A body without its texts. -/
def bare (b : Content) : Content := b.map (fun _ => []) id

@[simp] theorem bare_prepend (t : Text) (b : Content) : (b.prepend t).bare = b.bare := by
  cases b <;> rfl

/-- Contents side by side are bare as each of them is. -/
@[simp] theorem bare_append (b c : Content) : (b.append c).bare = b.bare.append c.bare := by
  induction b with
  | text t => exact (bare_prepend t c).trans (prepend_nil c.bare).symm
  | _ => simp_all [append, bare, map]

/-- Of what is done to the runs nothing is left in a bare content. -/
theorem bare_map (f g : Text → Text) (b : Content) : (b.map f g).bare = b.bare.map id g := by
  induction b <;> simp_all [bare, map]

end Content

/-! ### Naming items part by part -/

/-- The characters that tags of a template are made with. -/
def tagChars : List Char := ['\x7b', '\x7d', ' ', '|']

/-- A path without the characters that tags are made with. -/
def IsBare (array : Text) : Prop := ∀ c ∈ tagChars, c ∉ array

instance : DecidablePred IsBare := fun array =>
  inferInstanceAs (Decidable (∀ c ∈ tagChars, c ∉ array))

section NameItem

variable {array : Text} (name : Text)

/-- A bare array has no character that parts a tag, nor has the path of its item. -/
theorem not_mem_representative (h : IsBare array) {c : Char} (hc : c ∈ tagChars) :
    c ∉ representative array := by
  have hitem : ∀ c ∈ tagChars, c ∉ ".[0]".toList := by decide
  rw [representative, List.mem_append, not_or]
  exact ⟨h c hc, hitem c hc⟩

/-- A path may begin behind every character that parts a tag. -/
private theorem startsPath_of_mem : ∀ c ∈ tagChars, startsPath (some c) = true := by decide

/-- What is on both sides of a character that tags are made with is looked at by itself. -/
theorem nameItem_append_cons (h : IsBare array) {c : Char} (hc : c ∈ tagChars) (u v : Text) :
    nameItem array name (u ++ c :: v) = nameItem array name u ++ c :: nameItem array name v := by
  unfold nameItem
  rw [replaceStarts_append_cons (not_mem_representative h hc) (representative_ne_nil array) u v none 0
    (Nat.zero_le _)]
  rw [replaceStarts_congr (p := some c) (q := none) (startsPath_of_mem c hc)]

/-- Behind a character that parts a tag, naming the item begins anew. -/
theorem nameItem_cons (h : IsBare array) {c : Char} (hc : c ∈ tagChars) (v : Text) :
    nameItem array name (c :: v) = c :: nameItem array name v :=
  nameItem_append_cons name h hc [] v

/-- A text in which no item stands for all items. -/
def Itemless (t : Text) : Prop := ¬ ".[0]".toList <:+: t

instance : DecidablePred Itemless := fun t => inferInstanceAs (Decidable (¬ _ <:+: t))

/-- The parts of a text without items have none. -/
theorem Itemless.of_append {t u : Text} (h : Itemless (t ++ u)) : Itemless t ∧ Itemless u :=
  ⟨fun ht => h (ht.trans (List.prefix_append t u).isInfix),
    fun hu => h (hu.trans (List.suffix_append t u).isInfix)⟩

/-- A text without brackets has no items. -/
theorem itemless_of_bracket_not_mem {t : Text} (h : '[' ∉ t) : Itemless t := fun hi =>
  h (hi.subset (by decide))

/-- Where there is no item that stands for all items, nothing is named. -/
theorem Itemless.nameItem {t : Text} (h : Itemless t) : nameItem array name t = t := by
  refine replaceStarts_of_none (everyTail_of_suffix fun s hs hp => h ?_) none
  have hrepresentative : ".[0]".toList <:+: representative array :=
    (List.suffix_append array _).isInfix
  exact (hrepresentative.trans hp.isInfix).trans hs.isInfix

/-- Naming the item leaves a text without dots as it is. -/
theorem nameItem_of_dot_not_mem {t : Text} (h : '.' ∉ t) : nameItem array name t = t :=
  Itemless.nameItem name fun hi => h (hi.subset (by decide))

/-- Between braces an item is named by itself. -/
theorem nameItem_braced (h : IsBare array) (t p v : Text) :
    nameItem array name (t ++ (braced p ++ v)) =
      nameItem array name t ++ (braced (nameItem array name p) ++ nameItem array name v) := by
  have hbraced : ∀ p v : Text, braced p ++ v = '\x7b' :: '\x7b' :: (p ++ '\x7d' :: '\x7d' :: v) := by
    simp [braced]
  have hopening : '\x7b' ∈ tagChars := by decide
  have hclosing : '\x7d' ∈ tagChars := by decide
  rw [hbraced, hbraced, nameItem_append_cons name h hopening, nameItem_cons name h hopening,
    nameItem_append_cons name h hclosing, nameItem_cons name h hclosing]

/-- Behind a word without a dot and a space an item is named by itself. -/
theorem nameItem_spaced (h : IsBare array) {word : Text} (hword : '.' ∉ word) (p : Text) :
    nameItem array name (word ++ ' ' :: p) = word ++ ' ' :: nameItem array name p := by
  rw [nameItem_append_cons name h (by decide), nameItem_of_dot_not_mem name hword]

private theorem loopOpening_none (a : Text) :
    loopOpening a none = braced ("#each".toList ++ ' ' :: a) := by
  simp [loopOpening]

/-- The opening tag of a loop with a named item, taken apart at its spaces. -/
private theorem loopOpening_some (a v : Text) :
    loopOpening a (some v) =
      braced ("#each".toList ++ ' ' :: (a ++ ' ' :: ("as".toList ++ ' ' :: '|' :: (v ++ ['|'])))) := by
  simp [loopOpening]

/-- In the opening tag of a loop the item of a loop around it is named in the path of the array and in
the name of the item. -/
theorem nameItem_loopOpening (h : IsBare array) (t a v : Text) (itemVar : Option Text) :
    nameItem array name (t ++ (loopOpening a itemVar ++ v)) =
      nameItem array name t ++ (loopOpening (nameItem array name a)
        (itemVar.map (nameItem array name)) ++ nameItem array name v) := by
  have hbar : '|' ∈ tagChars := by decide
  have hspace : ' ' ∈ tagChars := by decide
  cases itemVar with
  | none =>
    rw [loopOpening_none, nameItem_braced name h, nameItem_spaced name h (by decide)]
    rw [Option.map_none, loopOpening_none]
  | some v =>
    rw [loopOpening_some, nameItem_braced name h, nameItem_spaced name h (by decide),
      nameItem_append_cons name h hspace, nameItem_spaced name h (by decide),
      nameItem_cons name h hbar, nameItem_append_cons name h hbar]
    rw [Option.map_some, loopOpening_some]
    rfl

/-- In the opening tag of a conditional block an item is named in the path. -/
theorem nameItem_block_opening (h : IsBare array) (n : Bool) (t p v : Text) :
    nameItem array name (t ++ ((Block.of (helperName n) p).opening ++ v)) =
      nameItem array name t ++ ((Block.of (helperName n) (nameItem array name p)).opening ++
        nameItem array name v) := by
  have hword : '.' ∉ '#' :: helperName n := by cases n <;> decide
  have hopening : ∀ p, (Block.of (helperName n) p).opening =
      braced ('#' :: helperName n ++ ' ' :: p) := fun p => rfl
  rw [hopening, hopening, nameItem_braced name h, nameItem_spaced name h hword]

/-- Tags without a dot stay. -/
theorem nameItem_braced_of_dot_not_mem (h : IsBare array) {p : Text} (hp : '.' ∉ p) (t v : Text) :
    nameItem array name (t ++ (braced p ++ v)) =
      nameItem array name t ++ (braced p ++ nameItem array name v) := by
  rw [nameItem_braced name h, nameItem_of_dot_not_mem name hp]

/-- **Naming an item.** In the text of a body an item is named in every run and every path. -/
theorem nameItem_written (h : IsBare array) (b : Content) :
    nameItem array name b.written =
      (b.map (nameItem array name) (nameItem array name)).written := by
  have heach : '.' ∉ "/each".toList := by decide
  have helse : '.' ∉ "else".toList := by decide
  have hclosing : ∀ n : Bool, '.' ∉ '/' :: helperName n := by decide
  induction b with
  | text t => rfl
  | reference t p r ih => simp only [Content.written, Content.map, nameItem_braced name h, ih]
  | loop t a v b r ihb ihr =>
    simp only [Content.written, Content.map, nameItem_loopOpening name h,
      nameItem_braced_of_dot_not_mem name h heach, ihb, ihr]
  | conditional t n p b r ihb ihr =>
    have hblock : (Block.of (helperName n) p).closing =
      braced ('/' :: helperName n) := rfl
    simp only [Content.written, Content.map, nameItem_block_opening name h, hblock,
      nameItem_braced_of_dot_not_mem name h (hclosing n), ihb, ihr]
    rfl
  | choice t n p b a r ihb iha ihr =>
    have hblock : (Block.of (helperName n) p).closing =
      braced ('/' :: helperName n) := rfl
    simp only [Content.written, Content.map, nameItem_block_opening name h, hblock, elseTag,
      nameItem_braced_of_dot_not_mem name h helse,
      nameItem_braced_of_dot_not_mem name h (hclosing n), ihb, iha, ihr]
    rfl

end NameItem

/-! ### Outlines as contents -/

/-- The sign and the path of the block for a conjunct. -/
def conjunctPath (conjunct : Text) : Bool × Text :=
  if has Condition.orSign conjunct then (false, conjunct)
  else
    let path := conjunct.dropWhile (· == '!')
    ((conjunct.length - path.length) % 2 == 1, trim path)

/-- The block of a conjunct, by its sign and its path. -/
theorem Block.ofConjunct_eq (conjunct : Text) :
    Block.ofConjunct conjunct =
      .of (helperName (conjunctPath conjunct).1) (conjunctPath conjunct).2 := by
  unfold Block.ofConjunct conjunctPath
  split <;> rfl

/-- The path of a block has no foreign character. -/
theorem not_mem_conjunctPath {c : Char} (hc : Condition.IsForeign c) {t condition conjunct : Text}
    (h : Condition.validateText t = .ok condition)
    (hconjunct : conjunct ∈ Condition.splitConjuncts condition) : c ∉ (conjunctPath conjunct).2 := by
  have hnot := hc.not_mem_of_mem_splitConjuncts h hconjunct
  unfold conjunctPath
  split
  · exact hnot
  · exact fun hmem => hnot ((List.dropWhile_suffix _).subset (mem_of_mem_trim hmem))

namespace Content

/-- A body inside the blocks of conjuncts. -/
def enclose (body : Content) : List Text → Content
  | [] => body
  | c :: cs => .conditional [] (conjunctPath c).1 (conjunctPath c).2 (body.enclose cs) (.text [])

/-- A body inside the blocks of conjuncts, each with the same alternative. -/
def encloseWith (alternative body : Content) : List Text → Content
  | [] => body
  | c :: cs =>
    .choice [] (conjunctPath c).1 (conjunctPath c).2 (alternative.encloseWith body cs) alternative
      (.text [])

/-- A body under a condition. -/
def underCondition (condition : Text) (body : Content) : Content :=
  match Condition.validateText (unwrapped condition) with
  | .ok condition => body.enclose (Condition.splitConjuncts condition)
  | .error _ => .text []

/-- A body under a condition with an alternative. -/
def underConditionElse (condition : Text) (alternative body : Content) : Content :=
  match Condition.validateText (unwrapped condition) with
  | .ok condition => alternative.encloseWith body (Condition.splitConjuncts condition)
  | .error _ => alternative

/-- The blocks of a condition are written as lowering writes them. -/
theorem written_enclose (body : Content) (cs : List Text) :
    (body.enclose cs).written = Template.enclose body.written (cs.map .ofConjunct) := by
  induction cs with
  | nil => rfl
  | cons c cs ih => simp [enclose, Template.enclose, written, ih, Block.ofConjunct_eq]

/-- So are those with an alternative in every block. -/
theorem written_encloseWith (alternative body : Content) (cs : List Text) :
    (alternative.encloseWith body cs).written =
      Template.encloseWith alternative.written body.written (cs.map .ofConjunct) := by
  induction cs with
  | nil => rfl
  | cons c cs ih => simp [encloseWith, Template.encloseWith, written, ih, Block.ofConjunct_eq]

/-- A content under a condition is written as lowering writes it. -/
theorem written_underCondition (condition : Text) (body : Content) :
    (body.underCondition condition).written =
      Template.underCondition condition body.written := by
  cases hc : Condition.validateText (unwrapped condition) with
  | ok c =>
    simp only [underCondition, Template.underCondition, hc, written_enclose]
    rfl
  | error failure =>
    simp only [underCondition, Template.underCondition, hc]
    rfl

/-- So is one with an alternative. -/
theorem written_underConditionElse (condition : Text) (alternative body : Content) :
    (underConditionElse condition alternative body).written =
      Template.underConditionElse condition alternative.written body.written := by
  cases hc : Condition.validateText (unwrapped condition) with
  | ok c =>
    simp only [underConditionElse, Template.underConditionElse, hc, written_encloseWith]
    rfl
  | error failure => simp only [underConditionElse, Template.underConditionElse, hc]

section Bare

variable (alternative body : Content) (condition : Text) (cs : List Text)

/-- The blocks of a condition are bare as their body is. -/
theorem bare_enclose : (body.enclose cs).bare = body.bare.enclose cs := by
  induction cs with
  | nil => rfl
  | cons c cs ih =>
    unfold bare at ih ⊢
    simp [enclose, map, ih]

theorem bare_encloseWith :
    (alternative.encloseWith body cs).bare = alternative.bare.encloseWith body.bare cs := by
  induction cs with
  | nil => rfl
  | cons c cs ih =>
    unfold bare at ih ⊢
    simp [encloseWith, map, ih]

/-- Under a condition a content is bare as it is without. -/
theorem bare_underCondition :
    (body.underCondition condition).bare = body.bare.underCondition condition := by
  unfold underCondition
  split
  · exact bare_enclose _ _
  · rfl

theorem bare_underConditionElse : (underConditionElse condition alternative body).bare =
    underConditionElse condition alternative.bare body.bare := by
  unfold underConditionElse
  split
  · exact bare_encloseWith _ _ _
  · rfl

end Bare

section EveryRun

variable {P : Text → Prop} {alternative body : Content} {condition t u : Text}

theorem EveryRun.of_enclose {cs : List Text} (h : (body.enclose cs).EveryRun P) :
    body.EveryRun P := by
  induction cs with
  | nil => exact h
  | cons c cs ih => exact ih h.2.1

theorem EveryRun.of_encloseWith {cs : List Text} (hcs : cs ≠ [])
    (h : (alternative.encloseWith body cs).EveryRun P) :
    alternative.EveryRun P ∧ body.EveryRun P := by
  induction cs with
  | nil => exact absurd rfl hcs
  | cons c cs ih =>
    obtain ⟨-, hinner, halternative, -⟩ := h
    refine ⟨halternative, ?_⟩
    cases cs with
    | nil => exact hinner
    | cons d ds => exact (ih (by simp) hinner).2

/-- What a body under a condition is depends on the body only where it is shown. -/
theorem underCondition_congr {named : Content} (h : (body.underCondition condition).EveryRun P)
    (hbody : body.EveryRun P → named = body) :
    named.underCondition condition = body.underCondition condition := by
  unfold underCondition at h ⊢
  split
  · next hc =>
    simp only [hc] at h
    rw [hbody h.of_enclose]
  · rfl

theorem underConditionElse_congr {other named : Content}
    (h : (underConditionElse condition alternative body).EveryRun P)
    (halternative : alternative.EveryRun P → other = alternative)
    (hbody : body.EveryRun P → named = body) :
    underConditionElse condition other named = underConditionElse condition alternative body := by
  unfold underConditionElse at h ⊢
  split
  · next c hc =>
    simp only [hc] at h
    have hne := Condition.splitConjuncts_ne_nil c
    obtain ⟨ha, hb⟩ := EveryRun.of_encloseWith hne h
    rw [halternative ha, hbody hb]
  · next hc =>
    simp only [hc] at h
    exact halternative h

end EveryRun

end Content

/-- The body that an outline is compiled to. An item is named in paths only. -/
def Outline.content : Outline → Content
  | done => .text []
  | text t _ rest => rest.content.prepend t
  | reference path _ rest => .reference [] path rest.content
  | element e inner rest =>
    ((inner.content.append (.text e.closing)).prepend e.opening).append rest.content
  | conditional c body rest => (body.content.underCondition c).append rest.content
  | choice c before alternative after rest =>
    (Content.underConditionElse c alternative.content (before.content.append after.content)).append rest.content
  | loop h body rest =>
    .loop [] h.array h.itemVar (body.content.map id (nameItem h.array (itemName h.itemVar))) rest.content

theorem Outline.content_append (o p : Outline) :
    (o.append p).content = o.content.append p.content := by
  induction o with
  | done => simp [append, content, Content.append]
  | text t plain rest ih => simp only [append, content, ih, Content.prepend_append]
  | reference path plain rest ih => simp only [append, content, ih, Content.append]
  | element e inner rest _ ih => simp only [append, content, ih, Content.append_assoc]
  | conditional c body rest _ ih => simp only [append, content, ih, Content.append_assoc]
  | choice c before alternative after rest _ _ _ ih =>
    simp only [append, content, ih, Content.append_assoc]
  | loop h body rest _ ih => simp only [append, content, ih, Content.append]

/-- The body that an outline is compiled to, with the items named in its texts, too. -/
def Outline.compiled : Outline → Content
  | done => .text []
  | text t _ rest => rest.compiled.prepend t
  | reference path _ rest => .reference [] path rest.compiled
  | element e inner rest =>
    ((inner.compiled.append (.text e.closing)).prepend e.opening).append rest.compiled
  | conditional c body rest => (body.compiled.underCondition c).append rest.compiled
  | choice c before alternative after rest =>
    (Content.underConditionElse c alternative.compiled
      (before.compiled.append after.compiled)).append rest.compiled
  | loop h body rest =>
    let naming := nameItem h.array (itemName h.itemVar)
    .loop [] h.array h.itemVar (body.compiled.map naming naming) rest.compiled

/-- **Compiled outlines.** The text that an outline is compiled to is that of its body. -/
theorem Outline.written_compiled {o : Outline} (hloops : o.EveryLoop fun h => IsBare h.array) :
    o.compiled.written = o.template := by
  induction o with
  | done => rfl
  | text t plain rest ih => simp only [compiled, template, Content.written_prepend, ih hloops]
  | reference path plain rest ih => simp only [compiled, template, Content.written, ih hloops]; rfl
  | element e inner rest ihi ihr =>
    simp only [compiled, template, Content.written_append, Content.written_prepend, ihi hloops.1,
      ihr hloops.2, Content.written]
  | conditional c body rest ihb ihr =>
    simp only [compiled, template, Content.written_append, Content.written_underCondition,
      ihb hloops.1, ihr hloops.2]
  | choice c before alternative after rest ihb iha ihf ihr =>
    obtain ⟨hbefore, halternative, hafter, hrest⟩ := hloops
    simp only [compiled, template, Content.written_append, Content.written_underConditionElse,
      ihb hbefore, iha halternative, ihf hafter, ihr hrest]
  | loop h body rest ihb ihr =>
    obtain ⟨hbare, hbody, hrest⟩ := hloops
    simp only [compiled, template, Content.written, ihr hrest, LoopHead.block,
      ← nameItem_written _ hbare, ihb hbody]
    simp

/-- Where no text has an item in it, none is named in the texts. -/
theorem Outline.compiled_eq_content {o : Outline} (hruns : o.content.EveryRun Itemless) :
    o.compiled = o.content := by
  -- no run has an item in it, so there is nothing that a loop could name
  induction o with
  | done => rfl
  | text t plain rest ih => rw [compiled, content, ih (hruns.of_prepend Itemless.of_append)]
  | reference path plain rest ih => rw [compiled, content, ih hruns.2]
  | element e inner rest ihi ihr =>
    obtain ⟨hinner, hrest⟩ := hruns.of_append Itemless.of_append
    have hinner := ((hinner.of_prepend Itemless.of_append).of_append Itemless.of_append).1
    rw [compiled, content, ihi hinner, ihr hrest]
  | conditional c body rest ihb ihr =>
    obtain ⟨hbody, hrest⟩ := hruns.of_append Itemless.of_append
    rw [compiled, content, ihr hrest, Content.underCondition_congr hbody ihb]
  | choice c before alternative after rest ihb iha ihf ihr =>
    obtain ⟨hbody, hrest⟩ := hruns.of_append Itemless.of_append
    have hwhole : (before.content.append after.content).EveryRun Itemless →
        before.compiled.append after.compiled = before.content.append after.content := by
      intro h
      obtain ⟨hb, hf⟩ := h.of_append Itemless.of_append
      rw [ihb hb, ihf hf]
    rw [compiled, content, ihr hrest, Content.underConditionElse_congr hbody iha hwhole]
  | loop h body rest ihb ihr =>
    obtain ⟨-, hbody, hrest⟩ := hruns
    rw [Content.everyRun_map] at hbody
    rw [compiled, content, ihb hbody, ihr hrest,
      Content.map_eq_of_everyRun (hbody.imp fun t ht => ht.nameItem _)]

/-- Naming items in texts changes nothing but texts. -/
theorem Outline.bare_compiled (o : Outline) : o.compiled.bare = o.content.bare := by
  induction o with
  | done => rfl
  | text t plain rest ih => simp only [compiled, content, Content.bare_prepend, ih]
  | reference path plain rest ih =>
    unfold Content.bare at ih ⊢
    simp only [compiled, content, Content.map, ih]
  | element e inner rest ihi ihr =>
    simp only [compiled, content, Content.bare_append, Content.bare_prepend, ihi, ihr]
  | conditional c body rest ihb ihr =>
    simp only [compiled, content, Content.bare_append, Content.bare_underCondition, ihb, ihr]
  | choice c before alternative after rest ihb iha ihf ihr =>
    simp only [compiled, content, Content.bare_append, Content.bare_underConditionElse, ihb, iha, ihf,
      ihr]
  | loop h body rest ihb ihr =>
    have hbody : ∀ f g, (body.compiled.map f g).bare = (body.content.map id g).bare := fun f g => by
      rw [Content.bare_map, Content.bare_map, ihb]
    unfold Content.bare at ihr hbody ⊢
    simp only [compiled, content, Content.map, hbody, ihr]

/-- Where items stand for all items in paths only, the text that an outline is compiled to is that of the
body with its texts as they are. -/
theorem Outline.written_content {o : Outline} (hloops : o.EveryLoop fun h => IsBare h.array)
    (hruns : o.content.EveryRun Itemless) : o.content.written = o.template := by
  rw [← compiled_eq_content hruns, written_compiled hloops]

end Stencil.Template
