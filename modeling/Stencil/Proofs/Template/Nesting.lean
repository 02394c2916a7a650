import Stencil.Proofs.Template.Content
import Stencil.Template.Stage

/-!
# Nested blocks

A template is properly nested if, read from left to right, every closing tag closes the block that
was opened last and is still open, every tag of an alternative stands in an `if` or `unless` block,
and no block is open at the end (`IsNested`). That no pseudo-tag is left in a template is not enough
for it: a conditional and a loop that cross each other become blocks that cross each other
(`compileMarkup_crossing_ne`).

The main statement is `compileMarkup_nested`: **markup whose pseudo-tags are nested compiles to a
nested template**, that is markup which is the text of an outline once it is ready for lowering. The
template of an outline is the text of a body (`Outline.written_compiled`), and a body is nested by
the induction `openBlocks_written`: whatever blocks are open before a body, the same are open behind
it.
-/

namespace Stencil.Template

open Text

/-! ### Reading blocks -/

/-- A tag of a block. -/
inductive Mark where
  /-- Opens a block of a kind. -/
  | opening (kind : Text)
  /-- Goes on with the alternative of a block. -/
  | alternative
  /-- Closes a block of a kind. -/
  | closing (kind : Text)
  deriving DecidableEq, Repr

/-- The tag of a block at the front of a text. -/
def mark? (t : Text) : Option Mark :=
  ((blockOpening? t).map fun found => .opening found.1).or
    (((blockClosing? t).map fun found => .closing found.1).or
      (if startsWith elseTag t then some .alternative else none))

/-- The kinds of the blocks that are open behind a tag, innermost first, if the tag may stand there.
-/
def Mark.step : Mark → List Text → Option (List Text)
  | opening kind, stack => some (kind :: stack)
  | alternative, kind :: stack => if kind = "each".toList then none else some (kind :: stack)
  | closing kind, own :: stack => if own = kind then some stack else none
  | _, [] => none

/-- The kinds of the blocks that are open behind a text, if every tag may stand where it stands. -/
def openBlocks : List Text → Text → Option (List Text)
  | stack, [] => some stack
  | stack, c :: cs =>
    match mark? (c :: cs) with
    | none => openBlocks stack cs
    | some mark => (mark.step stack).bind fun stack => openBlocks stack cs

/-- **Properly nested**: every tag may stand where it stands, and no block is open at the end. -/
def IsNested (t : Text) : Prop := openBlocks [] t = some []

instance : DecidablePred IsNested := fun t =>
  inferInstanceAs (Decidable (openBlocks [] t = some []))

/-! ### Texts without tags -/

/-- How every tag of a template begins. -/
def braces : Text := ['\x7b', '\x7b']

/-- A text in which another character comes behind every opening brace. -/
def Lone (t : Text) : Prop :=
  EveryTail (fun s => s.head? = some '\x7b' → ∃ d ∈ s.tail.head?, d ≠ '\x7b') t

instance Lone.decidable : DecidablePred Lone
  | [] => .isTrue trivial
  | c :: cs =>
    have : Decidable (Lone cs) := Lone.decidable cs
    inferInstanceAs (Decidable
      (((c :: cs).head? = some '\x7b' → ∃ d ∈ (c :: cs).tail.head?, d ≠ '\x7b') ∧ Lone cs))

section Lone

variable {t u : Text}

/-- A text without braces is lone. -/
theorem lone_of_not_mem (h : '\x7b' ∉ t) : Lone t :=
  everyTail_of_forall_mem fun c hc s hbrace => by
    obtain rfl : c = '\x7b' := by simpa using hbrace
    exact absurd hc h

/-- Lone texts side by side are lone, since no tag begins with the last brace of one. -/
theorem Lone.append (ht : Lone t) (hu : Lone u) : Lone (t ++ u) := by
  refine everyTail_append.mpr ⟨ht.imp fun s hs hbrace => ?_, hu⟩
  cases s with
  | nil =>
    obtain ⟨d, hd, hne⟩ : ∃ d ∈ u.tail.head?, d ≠ '\x7b' := by
      cases u with
      | nil => simp at hbrace
      | cons c cs => exact hu.1 hbrace
    exact ⟨d, hd, hne⟩
  | cons c cs =>
    obtain ⟨d, hd, hne⟩ := hs hbrace
    refine ⟨d, ?_, hne⟩
    have hhead : cs.head? = some d := hd
    simp [List.head?_append, hhead]

/-- Replacing words by a name without braces keeps a text lone. -/
private theorem lone_replaceStarts {word name : Text} (hname : '\x7b' ∉ name) (hne : name ≠ [])
    (previous : Option Char) (skip : ℕ) (h : Lone t) :
    Lone (replaceStarts word name previous skip t) := by
  induction t generalizing previous skip with
  | nil => cases skip <;> trivial
  | cons c cs ih =>
    cases skip with
    | succ skip => exact ih (some c) skip h.2
    | zero =>
      rw [replaceStarts]
      split
      · exact (lone_of_not_mem hname).append (ih _ _ h.2)
      · refine ⟨fun hbrace => ?_, ih _ _ h.2⟩
        -- what comes behind the brace is the character that came there before, or the name
        obtain ⟨d, hd, hd_ne⟩ := h.1 hbrace
        obtain ⟨ds, rfl⟩ : ∃ ds, cs = d :: ds := List.head?_eq_some_iff.mp hd
        rw [List.tail_cons, replaceStarts]
        split
        · obtain ⟨n, ns, rfl⟩ := List.exists_cons_of_ne_nil hne
          exact ⟨n, by simp, fun he => hname (by simp [he])⟩
        · exact ⟨d, by simp, hd_ne⟩

/-- Naming items brings no braces into a text. -/
theorem Lone.nameItem {array name : Text} (h : Lone t) (hname : '\x7b' ∉ name) (hne : name ≠ []) :
    Lone (nameItem array name t) := lone_replaceStarts hname hne none 0 h

end Lone

section Reading

variable {t u v : Text} {stack : List Text}

/-- A tag begins with two braces. -/
private theorem mark?_of_not_braces (h : ¬ braces <+: t) : mark? t = none := by
  have longer : ∀ {word : Text}, braces <+: word → ¬ word <+: t := fun hword hp =>
    h (hword.trans hp)
  have hopening : after? "\x7b\x7b#".toList t = none :=
    after?_eq_none_iff.mpr (longer ⟨['#'], by decide⟩)
  have hclosing : after? "\x7b\x7b/".toList t = none :=
    after?_eq_none_iff.mpr (longer ⟨['/'], by decide⟩)
  have helse : startsWith elseTag t = false :=
    startsWith_eq_false_iff.mpr (longer ⟨"else\x7d\x7d".toList, by decide⟩)
  rw [mark?, blockOpening?, blockClosing?, hopening, hclosing, helse]
  rfl

/-- A character at which no mark begins leaves the open blocks as they are. -/
private theorem openBlocks_cons {c : Char} (h : mark? (c :: t) = none) :
    openBlocks stack (c :: t) = openBlocks stack t := by
  rw [openBlocks, h]

/-- Text with single braces goes by. -/
theorem openBlocks_append_of_lone (h : Lone u) :
    openBlocks stack (u ++ v) = openBlocks stack v := by
  induction u with
  | nil => rfl
  | cons c cs ih =>
    have hnone : mark? (c :: (cs ++ v)) = none := by
      refine mark?_of_not_braces fun hp => ?_
      obtain ⟨rfl, hnext⟩ := List.cons_prefix_cons.mp hp
      obtain ⟨d, hd, hne⟩ := h.1 rfl
      obtain ⟨ds, rfl⟩ : ∃ ds, cs = d :: ds := List.head?_eq_some_iff.mp hd
      exact hne (List.cons_prefix_cons.mp hnext).1.symm
    rw [List.cons_append, openBlocks_cons hnone, ih h.2]

/-! ### Tags -/

/-- Behind its first brace nothing of a tag is read any more. -/
private theorem openBlocks_braced {inside : Text} (h : '\x7b' ∉ inside) {mark : Mark}
    (hmark : mark? (braced inside ++ v) = some mark) :
    openBlocks stack (braced inside ++ v) =
      (mark.step stack).bind fun stack => openBlocks stack v := by
  have hbraced : braced inside ++ v = '\x7b' :: '\x7b' :: (inside ++ ['\x7d', '\x7d'] ++ v) := by
    simp [braced]
  have hrest : '\x7b' ∉ inside ++ ['\x7d', '\x7d'] := by simp [h]
  have hnone : mark? ('\x7b' :: (inside ++ ['\x7d', '\x7d'] ++ v)) = none := by
    refine mark?_of_not_braces fun hp => hrest ?_
    obtain ⟨-, hnext⟩ := List.cons_prefix_cons.mp hp
    cases inside with
    | nil => simp at hnext
    | cons c cs =>
      obtain ⟨rfl, -⟩ := List.cons_prefix_cons.mp hnext
      simp
  rw [hbraced] at hmark ⊢
  rw [openBlocks, hmark]
  dsimp only
  refine congrArg (Option.bind _) (funext fun stack => ?_)
  rw [openBlocks_cons hnone, openBlocks_append_of_lone (lone_of_not_mem hrest)]

/-- The opening tag of a block is its mark. -/
private theorem mark?_opening {kind : Text} (h : kind ∈ blockNames) (p v : Text) :
    mark? (braced ('#' :: kind ++ ' ' :: p) ++ v) = some (.opening kind) := by
  have hspace : isWord ' ' = false := by decide
  simp only [blockNames, List.mem_cons, List.not_mem_nil, or_false] at h
  rcases h with rfl | rfl | rfl
  all_goals
    simp [mark?, blockOpening?, wholeWord?, blockNames, braced, after?, endsWord, hspace]

/-- The closing tag of a block is its mark. -/
private theorem mark?_closing {kind : Text} (h : kind ∈ blockNames) (v : Text) :
    mark? (braced ('/' :: kind) ++ v) = some (.closing kind) := by
  simp only [blockNames, List.mem_cons, List.not_mem_nil, or_false] at h
  rcases h with rfl | rfl | rfl <;> rfl

private theorem mark?_elseTag (v : Text) : mark? (elseTag ++ v) = some .alternative := by
  rfl

private theorem brace_not_mem_of_mem {kind : Text} (h : kind ∈ blockNames) : '\x7b' ∉ kind := by
  have hall : ∀ kind ∈ blockNames, '\x7b' ∉ kind := by decide
  exact hall kind h

/-- An opening tag opens one more block. -/
theorem openBlocks_opening {kind : Text} (h : kind ∈ blockNames) {p : Text} (hp : '\x7b' ∉ p) :
    openBlocks stack (braced ('#' :: kind ++ ' ' :: p) ++ v) = openBlocks (kind :: stack) v :=
  openBlocks_braced (by simp [brace_not_mem_of_mem h, hp]) (mark?_opening h p v)

/-- A closing tag closes the block that was opened last. -/
theorem openBlocks_closing {kind : Text} (h : kind ∈ blockNames) :
    openBlocks (kind :: stack) (braced ('/' :: kind) ++ v) = openBlocks stack v := by
  rw [openBlocks_braced (by simp [brace_not_mem_of_mem h]) (mark?_closing h v), Mark.step,
    if_pos rfl]
  rfl

/-- The tag between two branches leaves the blocks open. -/
theorem openBlocks_elseTag {kind : Text} (h : kind ≠ "each".toList) :
    openBlocks (kind :: stack) (elseTag ++ v) = openBlocks (kind :: stack) v := by
  rw [elseTag, openBlocks_braced (by decide) (mark?_elseTag v), Mark.step, if_neg h]
  rfl

end Reading

/-! ### Bodies -/

namespace Content

/-- A body whose tags can be told from its texts: no text has two braces in a row, no path has one,
and there are no references. -/
def IsLone : Content → Prop
  | text t => Lone t
  | reference _ _ _ => False
  | loop t a v b r =>
    Lone t ∧ ('\x7b' ∉ a ∧ ∀ name ∈ v, '\x7b' ∉ name) ∧ b.IsLone ∧ r.IsLone
  | conditional t _ p b r => Lone t ∧ '\x7b' ∉ p ∧ b.IsLone ∧ r.IsLone
  | choice t _ p b a r => Lone t ∧ '\x7b' ∉ p ∧ b.IsLone ∧ a.IsLone ∧ r.IsLone

/-- A conditional is a block, and no loop. -/
private theorem helperName_mem (n : Bool) :
    helperName n ∈ blockNames ∧ helperName n ≠ "each".toList := by
  cases n <;> decide

/-- **Bodies.** The blocks that are open before a body are those that are open behind it. -/
theorem openBlocks_written {b : Content} (h : b.IsLone) (stack : List Text) (v : Text) :
    openBlocks stack (b.written ++ v) = openBlocks stack v := by
  have heach : "each".toList ∈ blockNames := by decide
  -- a block is read with its kind on the stack, so the stack is open in the induction
  induction b generalizing stack v with
  | text t => exact openBlocks_append_of_lone h
  | reference t p r => exact absurd h id
  | loop t a name b r ihb ihr =>
    obtain ⟨ht, ⟨ha, hname⟩, hb, hr⟩ := h
    obtain ⟨p, hp, hopening⟩ : ∃ p, '\x7b' ∉ p ∧
        loopOpening a name = braced ('#' :: "each".toList ++ ' ' :: p) := by
      cases name with
      | none => exact ⟨a, ha, by simp [loopOpening]⟩
      | some own =>
        have hown := hname own rfl
        exact ⟨a ++ (" as |".toList ++ own ++ ['|']), by simp [ha, hown], by simp [loopOpening]⟩
    have hclosing : braced "/each".toList = braced ('/' :: "each".toList) := by decide
    simp only [written, List.append_assoc, hopening, hclosing]
    rw [openBlocks_append_of_lone ht, openBlocks_opening heach hp, ihb hb, openBlocks_closing heach,
      ihr hr]
  | conditional t n p b r ihb ihr =>
    obtain ⟨ht, hp, hb, hr⟩ := h
    obtain ⟨hkind, -⟩ := helperName_mem n
    simp only [written, List.append_assoc, Block.of]
    rw [openBlocks_append_of_lone ht, openBlocks_opening hkind hp, ihb hb, openBlocks_closing hkind,
      ihr hr]
  | choice t n p b a r ihb iha ihr =>
    obtain ⟨ht, hp, hb, ha, hr⟩ := h
    obtain ⟨hkind, hne⟩ := helperName_mem n
    simp only [written, List.append_assoc, Block.of]
    rw [openBlocks_append_of_lone ht, openBlocks_opening hkind hp, ihb hb, openBlocks_elseTag hne,
      iha ha, openBlocks_closing hkind, ihr hr]

/-- A content with lone texts is nested. -/
theorem IsLone.isNested {b : Content} (h : b.IsLone) : IsNested b.written := by
  have hall := openBlocks_written h [] []
  rwa [List.append_nil] at hall

section IsLone

variable {b c : Content} {t : Text}

/-- A lone text in front keeps a content lone. -/
theorem IsLone.prepend (ht : Lone t) (h : b.IsLone) : (b.prepend t).IsLone := by
  cases b with
  | text u => exact ht.append h
  | reference => exact h
  | loop | conditional | choice => exact ⟨ht.append h.1, h.2⟩

/-- Lone contents side by side are lone. -/
theorem IsLone.append (hb : b.IsLone) (hc : c.IsLone) : (b.append c).IsLone := by
  induction b with
  | text t => exact hc.prepend hb
  | reference => exact absurd hb id
  | loop t a v i r _ ihr => exact ⟨hb.1, hb.2.1, hb.2.2.1, ihr hb.2.2.2⟩
  | conditional t n p i r _ ihr => exact ⟨hb.1, hb.2.1, hb.2.2.1, ihr hb.2.2.2⟩
  | choice t n p i a r _ _ ihr => exact ⟨hb.1, hb.2.1, hb.2.2.1, hb.2.2.2.1, ihr hb.2.2.2.2⟩

/-- Naming items keeps a body plain. -/
theorem IsLone.map_nameItem {array name : Text} (hname : '\x7b' ∉ name) (hne : name ≠ [])
    (h : b.IsLone) : (b.map (nameItem array name) (nameItem array name)).IsLone := by
  have path : ∀ {p : Text}, '\x7b' ∉ p → '\x7b' ∉ nameItem array name p := fun hp hmem =>
    (mem_of_mem_nameItem hmem).elim hp hname
  induction b with
  | text t => exact Lone.nameItem h hname hne
  | reference => exact absurd h id
  | loop t a v i r ihi ihr =>
    obtain ⟨ht, ⟨ha, hv⟩, hi, hr⟩ := h
    refine ⟨ht.nameItem hname hne, ⟨path ha, fun own hown => ?_⟩, ihi hi, ihr hr⟩
    obtain ⟨before, hbefore, rfl⟩ := Option.map_eq_some_iff.mp hown
    exact path (hv before hbefore)
  | conditional t n p i r ihi ihr =>
    obtain ⟨ht, hp, hi, hr⟩ := h
    exact ⟨ht.nameItem hname hne, path hp, ihi hi, ihr hr⟩
  | choice t n p i a r ihi iha ihr =>
    obtain ⟨ht, hp, hi, ha, hr⟩ := h
    exact ⟨ht.nameItem hname hne, path hp, ihi hi, iha ha, ihr hr⟩

section Conjuncts

variable {conjuncts : List Text} (hpaths : ∀ conjunct ∈ conjuncts, '\x7b' ∉ (conjunctPath conjunct).2)

include hpaths

/-- The blocks of a condition keep a content lone. -/
theorem IsLone.enclose (h : b.IsLone) : (b.enclose conjuncts).IsLone := by
  induction conjuncts with
  | nil => exact h
  | cons conjunct rest ih =>
    obtain ⟨hpath, hrest⟩ := List.forall_mem_cons.mp hpaths
    exact ⟨trivial, hpath, ih hrest, trivial⟩

/-- The blocks of a condition with an alternative keep contents lone. -/
theorem IsLone.encloseWith (hb : b.IsLone) (hc : c.IsLone) : (b.encloseWith c conjuncts).IsLone := by
  induction conjuncts with
  | nil => exact hc
  | cons conjunct rest ih =>
    obtain ⟨hpath, hrest⟩ := List.forall_mem_cons.mp hpaths
    exact ⟨trivial, hpath, ih hrest, hb, trivial⟩

end Conjuncts

/-- Under any condition, of use or not, a content stays lone. -/
theorem IsLone.underCondition (condition : Text) (h : b.IsLone) :
    (b.underCondition condition).IsLone := by
  unfold Content.underCondition
  split
  · next checked hvalid => exact h.enclose fun _ => not_mem_conjunctPath (by decide) hvalid
  · trivial

theorem IsLone.underConditionElse (condition : Text) (hb : b.IsLone) (hc : c.IsLone) :
    (Content.underConditionElse condition b c).IsLone := by
  unfold Content.underConditionElse
  split
  · next checked hvalid => exact hb.encloseWith (fun _ => not_mem_conjunctPath (by decide) hvalid) hc
  · exact hb

end IsLone

end Content

/-! ### Outlines -/

/-- A loop whose array is bare and without `>`, and whose item has a name without braces. -/
def PlainHead.IsClear (h : PlainHead) : Prop :=
  IsBare h.array ∧ '>' ∉ h.array ∧ ∀ v ∈ h.itemVar, '\x7b' ∉ v

instance : DecidablePred PlainHead.IsClear := fun h =>
  inferInstanceAs (Decidable (IsBare h.array ∧ '>' ∉ h.array ∧ ∀ v ∈ h.itemVar, '\x7b' ∉ v))

namespace Outline

/-- An outline without references in whose texts and attributes every opening brace stands alone. -/
def IsLone : Outline → Prop
  | done => True
  | text t _ rest => Lone t ∧ rest.IsLone
  | reference _ _ _ => False
  | element e inner rest => Lone e.attributes ∧ inner.IsLone ∧ rest.IsLone
  | conditional _ body rest | loop _ body rest => body.IsLone ∧ rest.IsLone
  | choice _ before alternative after rest =>
    before.IsLone ∧ alternative.IsLone ∧ after.IsLone ∧ rest.IsLone

instance IsLone.decidable : DecidablePred IsLone
  | done => .isTrue trivial
  | text t _ rest =>
    have : Decidable rest.IsLone := IsLone.decidable rest
    inferInstanceAs (Decidable (Lone t ∧ rest.IsLone))
  | reference _ _ _ => .isFalse id
  | element e inner rest =>
    have : Decidable inner.IsLone := IsLone.decidable inner
    have : Decidable rest.IsLone := IsLone.decidable rest
    inferInstanceAs (Decidable (Lone e.attributes ∧ inner.IsLone ∧ rest.IsLone))
  | conditional _ body rest | loop _ body rest =>
    have : Decidable body.IsLone := IsLone.decidable body
    have : Decidable rest.IsLone := IsLone.decidable rest
    inferInstanceAs (Decidable (body.IsLone ∧ rest.IsLone))
  | choice _ before alternative after rest =>
    have : Decidable before.IsLone := IsLone.decidable before
    have : Decidable alternative.IsLone := IsLone.decidable alternative
    have : Decidable after.IsLone := IsLone.decidable after
    have : Decidable rest.IsLone := IsLone.decidable rest
    inferInstanceAs
      (Decidable (before.IsLone ∧ alternative.IsLone ∧ after.IsLone ∧ rest.IsLone))

/-- The opening tag of an element with lone attributes is lone. -/
private theorem lone_opening {e : Shell} (h : Lone e.attributes) : Lone e.opening := by
  have hname : '\x7b' ∉ e.tag.toList := fun hmem =>
    absurd (e.isNameLetter_of_mem _ hmem) (by decide)
  have hstart : Lone ('<' :: e.tag.toList) := lone_of_not_mem (by simp [hname])
  have hend : Lone (if Markup.isVoid e.tag then ['/', '>'] else ['>']) :=
    lone_of_not_mem (by split <;> decide)
  exact (hstart.append h).append hend

private theorem lone_closing (e : Shell) : Lone e.closing := by
  have hname : '\x7b' ∉ e.tag.toList := fun hmem =>
    absurd (e.isNameLetter_of_mem _ hmem) (by decide)
  rw [e.closing_eq]
  split
  · trivial
  · exact lone_of_not_mem (by simp [hname])

/-- The content that a lone outline is compiled to is lone. -/
theorem isLone_compiled {o : Outline} (hloops : o.EveryLoop PlainHead.IsClear) (h : o.IsLone) :
    o.compiled.IsLone := by
  -- the tags of blocks are tags of the body, and no two braces come together in its texts
  induction o with
  | done => trivial
  | text t plain rest ih => exact (ih hloops h.2).prepend h.1
  | reference => exact absurd h id
  | element e inner rest ihi ihr =>
    obtain ⟨hattributes, hinner, hrest⟩ := h
    have hclosing : (Content.text e.closing).IsLone := lone_closing e
    have hinside := ((ihi hloops.1 hinner).append hclosing).prepend (lone_opening hattributes)
    exact hinside.append (ihr hloops.2 hrest)
  | conditional c body rest ihb ihr =>
    exact ((ihb hloops.1 h.1).underCondition c).append (ihr hloops.2 h.2)
  | choice c before alternative after rest ihb iha ihf ihr =>
    obtain ⟨lbefore, lalternative, lafter, lrest⟩ := hloops
    obtain ⟨hbefore, halternative, hafter, hrest⟩ := h
    have hshown := (ihb lbefore hbefore).append (ihf lafter hafter)
    exact ((iha lalternative halternative).underConditionElse c hshown).append (ihr lrest hrest)
  | loop head body rest ihb ihr =>
    obtain ⟨⟨hbare, -, hvar⟩, lbody, lrest⟩ := hloops
    have hname : '\x7b' ∉ itemName head.itemVar ∧ itemName head.itemVar ≠ [] := by
      cases hv : head.itemVar with
      | none => decide
      | some v => exact ⟨hvar v hv, fun he => head.itemVar_ne_nil (hv.trans (congrArg some he))⟩
    exact ⟨trivial, ⟨hbare _ (by decide), hvar⟩,
      (ihb lbody h.1).map_nameItem hname.1 hname.2, ihr lrest h.2⟩

/-- **Outlines.** The template of an outline is properly nested. -/
theorem isNested_template {o : Outline} (hloops : o.EveryLoop PlainHead.IsClear) (h : o.IsLone) :
    IsNested o.template := by
  rw [← written_compiled (hloops.imp fun _ hclear => hclear.1)]
  exact (isLone_compiled hloops h).isNested

end Outline

/-! ### Compiling -/

/-- The stages before pseudo-tags are lowered. -/
def Options.preparation (options : Options) : List Stage :=
  (if options.stripComments then [.comments] else []) ++
    (if options.stripAttributes.isEmpty then [] else [.attributes options.stripAttributes]) ++
    [.markers options.shape options.strict]

/-- The stages are those of the preparation, then lowering and validation. -/
private theorem stages_eq (options : Options) :
    options.stages = options.preparation ++ [.pseudoTags, .validation] := by
  simp [Options.stages, Options.preparation]

/-- Stages one behind the other run one after the other. -/
private theorem runStages_append (artifact : Artifact) (first last : List Stage) (t : Text) :
    runStages artifact (first ++ last) t =
      (do runStages artifact last (← runStages artifact first t)) := by
  induction first generalizing t with
  | nil => simp [runStages]
  | cons stage rest ih => simp only [List.cons_append, runStages, ih, bind_assoc]

/-- **Nested templates.** Markup that is the text of an outline once comments, host attributes and
markers are gone compiles to the template of the outline, and this is properly nested. -/
theorem compileMarkup_nested {options : Options} (hfault : options.fault = none)
    {artifact : Artifact} {markup : Text} {o : Outline} (hloops : o.EveryLoop PlainHead.IsClear)
    (hlone : o.IsLone) {journal prepared : Journal}
    (hprepared :
      runStages artifact options.preparation markup journal = (.ok o.written, prepared)) :
    (∃ journal', options.compileMarkup artifact markup journal = (.ok o.template, journal')) ∧
      IsNested o.template := by
  have hunspaced : o.EveryLoop PlainHead.IsUnspaced :=
    hloops.imp fun _ hclear => ⟨hclear.1 ' ' (by decide), hclear.2.1⟩
  refine ⟨?_, o.isNested_template hloops hlone⟩
  obtain ⟨journal', hlowered⟩ := Outline.lowerTags_written (.inl hunspaced) prepared
  have htight : Tight o.template := (keeps_tight.reaches_template o hunspaced).2
  have hvalid : refuseUnbalanced artifact.source o.template journal' =
      (.ok o.template, journal') := by
    rw [refuseUnbalanced, unbalanced_of_untagged htight.untagged]
    rfl
  refine ⟨journal', ?_⟩
  rw [Options.compileMarkup_of_fault_eq_none hfault, stages_eq, runStages_append]
  exact (Work.bind_of_ok hprepared).trans
    ((Work.bind_of_ok hlowered).trans (Work.bind_of_ok hvalid))

/-- A list of rows, each of them in one of two forms. -/
def rowList : Outline :=
  .loop ⟨⟨"rows".toList, some "row".toList, by decide, by decide⟩, by decide, by decide⟩
    (.choice "rows.[0].on && all".toList (.text "a{b} ".toList (by decide) .done)
      (.conditional "!off".toList (.text "-".toList (by decide) .done) .done) .done .done) .done

theorem compileMarkup_rowList :
    (Options.fault {} = none ∧ rowList.EveryLoop PlainHead.IsClear ∧ rowList.IsLone) ∧
      (∃ journal,
        Options.compileMarkup {} {} rowList.written [] = (.ok rowList.template, journal)) ∧
      IsNested rowList.template := by
  have hloops : rowList.EveryLoop PlainHead.IsClear := by decide
  have hlone : rowList.IsLone := by decide
  obtain ⟨journal, hprepared⟩ : ∃ journal,
      runStages {} (Options.preparation {}) rowList.written [] =
        (.ok rowList.written, journal) := by
    have htext : (runStages {} (Options.preparation {}) rowList.written []).1.toOption =
        some rowList.written := by decide +kernel
    revert htext
    generalize runStages {} (Options.preparation {}) rowList.written [] = result
    obtain ⟨_ | t, journal⟩ := result
    · exact fun htext => nomatch htext
    · exact fun htext => ⟨journal, by rw [Option.some.inj htext]⟩
  exact ⟨⟨rfl, hloops, hlone⟩, compileMarkup_nested rfl hloops hlone hprepared⟩

/-- A conditional and a loop that cross each other. -/
def crossing : Text := "<hb-if condition=\"a\"><hb-each array=\"b\"></hb-if></hb-each>".toList

/-- **Crossing blocks.** Nothing is left of the pseudo-tags of a conditional and a loop that cross
each other, but the blocks cross each other as well. -/
theorem compileMarkup_crossing_ne :
    (Options.compileMarkup {} {} crossing []).1.toOption =
        some "\x7b\x7b#if a\x7d\x7d\x7b\x7b#each b\x7d\x7d\x7b\x7b/if\x7d\x7d\x7b\x7b/each\x7d\x7d".toList ∧
      ¬ IsNested "\x7b\x7b#if a\x7d\x7d\x7b\x7b#each b\x7d\x7d\x7b\x7b/if\x7d\x7d\x7b\x7b/each\x7d\x7d".toList := by
  constructor <;> decide +kernel

end Stencil.Template
