import Stencil.Markup.Tag
import Stencil.Proofs.Template.Blocks
import Stencil.Proofs.Template.Naming
import Stencil.Proofs.Template.Region

/-!
# Outlines

An `Outline` is markup on its way to a template as a tree: runs of text, elements, conditionals and
loops. Its text is `Outline.written`; `Outline.template` compiles it bottom-up, part by part.

The main statement is `Outline.lowerTags_written`: **lowering the written text is compiling the
outline.** Conditionals go first, and in between stands `Outline.decided`, the text in which only
loops are left. Each of the two steps is an induction on the outline with the rules of `SettlesTo`.
What has to be known of the texts on the way is collected in `Woven` for the first step and in `Keeps`
for the second.
-/

namespace Stencil.Template

open Text Markup

/-! ### Parts of outlines -/

/-- The tags of an element: a name that is that of no pseudo-tag, and attributes. -/
structure Shell where
  /-- The name. -/
  tag : String
  /-- The text of the attributes. -/
  attributes : Text
  isNameLetter_of_mem : ∀ c ∈ tag.toList, isNameLetter c = true
  not_pseudo : ¬ pseudoOpening.tail <+: lower tag.toList
  attributes_plain : '<' ∉ attributes ∧ '>' ∉ attributes
  attributes_head : attributes = [] ∨ attributes.head? = some ' '
  attributes_last : attributes.getLast? ≠ some '/'

/-- The start tag. -/
def Shell.opening (e : Shell) : Text :=
  '<' :: e.tag.toList ++ e.attributes ++ if isVoid e.tag then ['/', '>'] else ['>']

/-- The end tag. -/
def Shell.closing (e : Shell) : Text := endTag e.tag

/-- The head of a loop whose array and item are named without angle brackets. -/
structure PlainHead extends LoopHead where
  angle_not_mem_array : '<' ∉ array
  angle_not_mem_itemVar : ∀ v ∈ itemVar, '<' ∉ v

/-- Markup with its pseudo-tags, as a tree. Each part has the parts behind it as its last argument. -/
inductive Outline where
  /-- Nothing more. -/
  | done
  /-- A run of text. -/
  | text (t : Text) (plain : '<' ∉ t) (rest : Outline)
  /-- A reference to a value. -/
  | reference (path : Text) (plain : '<' ∉ path) (rest : Outline)
  /-- An element around what is inside it. -/
  | element (e : Shell) (inner rest : Outline)
  /-- A conditional without an alternative. -/
  | conditional (condition : Text) (body rest : Outline)
  /-- A conditional around its alternative. -/
  | choice (condition : Text) (before alternative after rest : Outline)
  /-- A loop. -/
  | loop (h : PlainHead) (body rest : Outline)

/-- Braces bring no angle bracket into a text. -/
theorem angle_not_mem_braced {t : Text} (h : '<' ∉ t) : '<' ∉ braced t := by
  simp [braced, h]

namespace Outline

/-- One outline behind another. -/
def append : Outline → Outline → Outline
  | done, o => o
  | text t plain rest, o => text t plain (rest.append o)
  | reference path plain rest, o => reference path plain (rest.append o)
  | element e inner rest, o => element e inner (rest.append o)
  | conditional c body rest, o => conditional c body (rest.append o)
  | choice c before alternative after rest, o => choice c before alternative after (rest.append o)
  | loop h body rest, o => loop h body (rest.append o)

/-- The text of an outline, pseudo-tags included. -/
def written : Outline → Text
  | done => []
  | text t _ rest => t ++ rest.written
  | reference path _ rest => braced path ++ rest.written
  | element e inner rest => e.opening ++ (inner.written ++ e.closing) ++ rest.written
  | conditional c body rest => ifTag c ++ (body.written ++ ifClosing) ++ rest.written
  | choice c before alternative after rest =>
    ifTag c ++ ((before.written ++ (elseOpening ++ (alternative.written ++ (elseClosing ++
      after.written)))) ++ ifClosing) ++ rest.written
  | loop h body rest => h.tag ++ (body.written ++ eachClosing) ++ rest.written

end Outline

/-! ### Compiling an outline -/

/-- A condition without the braces that may stand around it. -/
def unwrapped (condition : Text) : Text :=
  match after? ['\x7b', '\x7b'] condition with
  | some rest =>
    if endsWith ['\x7d', '\x7d'] rest then trim (rest.take (rest.length - 2)) else condition
  | none => condition

/-- Braces around the whole are dropped, and so is white space inside them. -/
theorem unwrapped_braced (t : Text) : unwrapped (braced t) = trim t := by
  have hafter : after? ['\x7b', '\x7b'] (braced t) = some (t ++ ['\x7d', '\x7d']) :=
    after?_append ['\x7b', '\x7b'] (t ++ ['\x7d', '\x7d'])
  have hends : endsWith ['\x7d', '\x7d'] (t ++ ['\x7d', '\x7d']) = true := by
    simp [endsWith, startsWith, after?]
  rw [unwrapped, hafter]
  dsimp only
  rw [if_pos hends, List.length_append, List.length_cons, List.length_singleton, Nat.add_sub_cancel,
    List.take_left]

/-- Without braces around the whole a condition is taken as it is. -/
theorem unwrapped_of_forall_ne {condition : Text} (h : ∀ t, condition ≠ braced t) :
    unwrapped condition = condition := by
  rw [unwrapped]
  split
  · next rest hafter =>
    refine if_neg fun hends => ?_
    obtain ⟨t, rfl⟩ := List.reverse_prefix.mp (startsWith_iff.mp hends)
    have hbraced := eq_append_of_after? hafter
    exact h t hbraced
  · rfl

/-- A text under a condition: in its blocks, or nothing if the condition is of no use. -/
def underCondition (condition body : Text) : Text :=
  match Condition.validateText (unwrapped condition) with
  | .ok condition => enclose body (blocks condition)
  | .error _ => []

/-- A text under a condition with an alternative, which stands in every block, and alone if the
condition is of no use. -/
def underConditionElse (condition alternative body : Text) : Text :=
  match Condition.validateText (unwrapped condition) with
  | .ok condition => encloseWith alternative body (blocks condition)
  | .error _ => alternative

section Related

variable {R : Text → Text → Prop}
  (append : ∀ {t t' u u'}, R t t' → R u u' → R (t ++ u) (t' ++ u'))
  (plain : ∀ {t}, '<' ∉ t → R t t)

include append plain

/-- A relation that blocks and texts keep is kept by a condition. -/
theorem underCondition_related (c : Text) {t t' : Text} (h : R t t') :
    R (underCondition c t) (underCondition c t') := by
  unfold underCondition
  split
  · next hc =>
    refine enclose_related append (fun b hb => ?_) h
    have hplain := plain_of_mem_blocks hc hb
    exact ⟨plain hplain.1, plain hplain.2⟩
  · exact plain (by simp)

/-- A relation that blocks and texts keep is kept by a condition with an alternative. -/
theorem underConditionElse_related (c : Text) {t t' u u' : Text} (ht : R t t') (hu : R u u') :
    R (underConditionElse c t u) (underConditionElse c t' u') := by
  unfold underConditionElse
  split
  · next hc =>
    refine encloseWith_related append (fun b hb => ?_) (plain (by decide)) ht hu
    have hplain := plain_of_mem_blocks hc hb
    exact ⟨plain hplain.1, plain hplain.2⟩
  · exact ht

end Related

/-- The block of a loop. -/
def LoopHead.block (h : LoopHead) (body : Text) : Text :=
  loopOpening h.array h.itemVar ++ nameItem h.array (itemName h.itemVar) body ++
    braced "/each".toList

namespace Outline

/-- **Bottom-up compilation.** Every part becomes template text by itself. -/
def template : Outline → Text
  | done => []
  | text t _ rest => t ++ rest.template
  | reference path _ rest => braced path ++ rest.template
  | element e inner rest => e.opening ++ (inner.template ++ e.closing) ++ rest.template
  | conditional c body rest => underCondition c body.template ++ rest.template
  | choice c before alternative after rest =>
    underConditionElse c alternative.template (before.template ++ after.template) ++ rest.template
  | loop h body rest => h.block body.template ++ rest.template

/-- The text of an outline with the conditionals lowered and the loops as they are written. -/
def decided : Outline → Text
  | done => []
  | text t _ rest => t ++ rest.decided
  | reference path _ rest => braced path ++ rest.decided
  | element e inner rest => e.opening ++ (inner.decided ++ e.closing) ++ rest.decided
  | conditional c body rest => underCondition c body.decided ++ rest.decided
  | choice c before alternative after rest =>
    underConditionElse c alternative.decided (before.decided ++ after.decided) ++ rest.decided
  | loop h body rest => h.tag ++ (body.decided ++ eachClosing) ++ rest.decided

section Append

variable (o p : Outline)

@[simp] theorem append_done : o.append .done = o := by
  induction o <;> simp_all [append]

/-- Outlines side by side may be grouped in any way. -/
theorem append_assoc (q : Outline) : (o.append p).append q = o.append (p.append q) := by
  induction o <;> simp_all [append]

/-- Outlines side by side are written one behind the other. -/
@[simp] theorem written_append : (o.append p).written = o.written ++ p.written := by
  induction o <;> simp_all [append, written]

end Append

end Outline

/-! ### What elements are read as -/

namespace Shell

variable (e : Shell)

private theorem not_mem_tag {c : Char} (hc : isNameLetter c = false) : c ∉ e.tag.toList := fun h =>
  absurd (e.isNameLetter_of_mem c h) (by simp [hc])

/-- A name in lower case begins like that of a pseudo-tag if the name does. -/
theorem not_pseudo_tag : ¬ pseudoOpening.tail <+: e.tag.toList := by
  rintro ⟨u, hu⟩
  refine e.not_pseudo ⟨lowerFrom ['-', 'b', 'h'] u, ?_⟩
  rw [← hu]
  rfl

/-- The tag of an element is not that of an alternative in any case of its letters. -/
theorem lower_tag_ne : lower e.tag.toList ≠ elseName := fun h =>
  e.not_pseudo (h ▸ by decide)

/-- An element with content has a closing tag, a void one has none. -/
theorem closing_eq : e.closing = if isVoid e.tag then [] else '<' :: '/' :: (e.tag.toList ++ ['>']) := by
  rfl

/-- The name of a void element begins with a letter. -/
private theorem exists_letter_of_isVoid (h : isVoid e.tag = true) :
    ∃ c cs, e.tag.toList = c :: cs ∧ isAsciiLetter c = true := by
  have hmem : e.tag ∈ voidElements := by simpa [isVoid] using h
  have hall : ∀ tag ∈ voidElements, tag.toList.head?.any isAsciiLetter = true := by decide
  have hhead := hall _ hmem
  cases htag : e.tag.toList with
  | nil => simp [htag] at hhead
  | cons c cs => exact ⟨c, cs, rfl, by simpa [htag] using hhead⟩

/-- Around what passes, an element passes. -/
theorem passes {inner : Text} (h : Passes inner) : Passes (e.opening ++ (inner ++ e.closing)) := by
  cases hvoid : isVoid e.tag with
  | false =>
    have := passes_pair e.isNameLetter_of_mem e.lower_tag_ne e.attributes_plain.symm
      e.attributes_head e.attributes_last h
    simpa [opening, closing_eq, hvoid] using this
  | true =>
    obtain ⟨c, cs, htag, hc⟩ := e.exists_letter_of_isVoid hvoid
    have hletters := e.isNameLetter_of_mem
    have hlower := e.lower_tag_ne
    rw [htag] at hletters hlower
    have hhead : ∀ x ∈ (e.attributes ++ ['/']).head?, isTagNameChar x = false := by
      intro x hx
      rcases e.attributes_head with ha | ha
      · obtain rfl : '/' = x := by simpa [ha] using hx
        decide
      · obtain rfl : ' ' = x := by simpa [ha] using hx
        decide
    have hend : '>' ∉ e.attributes ++ ['/'] := by simp [e.attributes_plain.2]
    have hopening := passes_void hc (fun x hx => hletters x (by simp [hx])) hlower hend hhead (by simp)
    have : Passes e.opening := by simpa [opening, hvoid, htag] using hopening
    simpa [closing_eq, hvoid] using this.append h

/-- A tag begins with a name that is not one of the words of pseudo-tags. -/
private theorem beginsTag {name : Text} {u : Text} (hdot : '.' ∉ name)
    (hopening : ¬ pseudoOpening.tail <+: name) (hclosing : ¬ pseudoClosing.tail <+: name)
    (hu : u.head? = some ' ' ∨ u.head? = some '>') : BeginsTag (name ++ u) := by
  cases u with
  | nil => simp at hu
  | cons c cs => exact ⟨name, c, cs, rfl, by simpa using hu, hdot, hopening, hclosing⟩

/-- Behind the brackets of an element its name stands. -/
theorem tight_opening : Tight e.opening := by
  have hdot := e.not_mem_tag (c := '.') (by decide)
  have hslash := e.not_mem_tag (c := '/') (by decide)
  have hangle := e.not_mem_tag (c := '<') (by decide)
  have hclosing : ¬ pseudoClosing.tail <+: e.tag.toList := fun h =>
    hslash (h.subset (by decide))
  have heq : e.opening = '<' :: (e.tag.toList ++
      (e.attributes ++ if isVoid e.tag then ['/', '>'] else ['>'])) := by
    simp [opening]
  rw [heq]
  refine tight_tag ?_ ?_
  · simp only [List.mem_append, hangle, e.attributes_plain.1, false_or]
    split <;> decide
  · rcases e.attributes_head with ha | ha
    · cases hvoid : isVoid e.tag with
      | false =>
        rw [ha]
        exact beginsTag hdot e.not_pseudo_tag hclosing (.inr rfl)
      | true =>
        -- the name and the slash are one word for the pattern
        have hnot : ∀ {p : Text}, '/' ∉ p → ¬ p <+: e.tag.toList → ¬ p <+: e.tag.toList ++ ['/'] :=
          fun hp h hstart => h (prefix_of_prefix_append_cons hstart hp)
        have hclosing' : ¬ pseudoClosing.tail <+: e.tag.toList ++ ['/'] := by
          intro h
          cases htag : e.tag.toList with
          | nil => simp [htag, pseudoClosing] at h
          | cons c cs =>
            rw [htag] at h
            have hc : '/' = c := (List.cons_prefix_cons.mp h).1
            exact hslash (by simp [htag, ← hc])
        have hbegins : BeginsTag ((e.tag.toList ++ ['/']) ++ ['>']) :=
          beginsTag (by simp [hdot]) (hnot (by decide) e.not_pseudo_tag) hclosing' (.inr rfl)
        simpa [ha] using hbegins
    · refine beginsTag hdot e.not_pseudo_tag hclosing (.inl ?_)
      rw [List.head?_append, ha]
      rfl

/-- The closing tag of an element is tight. -/
theorem tight_closing : Tight e.closing := by
  rw [closing_eq]
  split
  · trivial
  · have hdot := e.not_mem_tag (c := '.') (by decide)
    have hangle := e.not_mem_tag (c := '<') (by decide)
    refine tight_tag (by simp [hangle]) ?_
    rw [← List.cons_append]
    refine beginsTag (by simp [hdot]) ?_ ?_ (.inr rfl)
    · simp [pseudoOpening]
    · intro h
      exact e.not_pseudo_tag (List.cons_prefix_cons.mp h).2

end Shell

/-! ### Conditionals -/

/-- What the text is on whose alternatives are looked for: the search passes over it, and none of the
tags of conditionals starts in it. -/
structure Woven (t : Text) : Prop where
  passes : Passes t
  no_conditional : Clear ifOpening ifClosing t
  no_alternative : Clear elseOpening elseClosing t

namespace Woven

variable {t u : Text}

/-- Woven texts side by side are woven. -/
theorem append (ht : Woven t) (hu : Woven u) : Woven (t ++ u) :=
  ⟨ht.passes.append hu.passes, ht.no_conditional.append hu.no_conditional,
    ht.no_alternative.append hu.no_alternative⟩

/-- A text without tags is woven. -/
theorem of_not_mem (h : '<' ∉ t) : Woven t := by
  refine ⟨passes_of_not_mem h, ?_, ?_⟩
  · rw [ifOpening_eq, ifClosing_eq]
    exact clear_of_not_mem h
  · rw [elseOpening_eq, elseClosing_eq]
    exact clear_of_not_mem h

/-- An element with woven content is woven. -/
theorem element (e : Shell) (h : Woven t) : Woven (e.opening ++ (t ++ e.closing)) := by
  have hopening := e.tight_opening.untagged
  have hclosing := e.tight_closing.untagged
  refine ⟨e.passes h.passes, ?_, ?_⟩
  · exact (hopening.clear (by decide) (by decide)).append
      (h.no_conditional.append (hclosing.clear (by decide) (by decide)))
  · exact (hopening.clear (by decide) (by decide)).append
      (h.no_alternative.append (hclosing.clear (by decide) (by decide)))

private theorem tag_eq (h : LoopHead) :
    h.tag = '<' :: (['h', 'b', '-', 'e', 'a', 'c', 'h'] ++ (h.attributes ++ ['>'])) := by
  simp [LoopHead.tag, eachOpening_eq]

private theorem attributes_head (h : LoopHead) : h.attributes.head? = some ' ' := rfl

private theorem attributes_last (h : LoopHead) : h.attributes.getLast? = some '"' := by
  cases hv : h.itemVar <;>
    simp [LoopHead.attributes, hv, writtenAttribute, List.getLast?_append, List.getLast?_cons]

/-- The tags of loops are read as no tags with another name. -/
private theorem clear_loop {ow cw : Text}
    (hopening : ∀ v, ¬ ow <+: ['h', 'b', '-', 'e', 'a'] ++ v ∧ ¬ cw <+: ['h', 'b', '-', 'e', 'a'] ++ v)
    (hclosing : ∀ v, ¬ ow <+: ['/', 'h', 'b', '-', 'e', 'a'] ++ v ∧
      ¬ cw <+: ['/', 'h', 'b', '-', 'e', 'a'] ++ v) (h : LoopHead) :
    Clear ('<' :: ow) ('<' :: cw) h.tag ∧ Clear ('<' :: ow) ('<' :: cw) eachClosing := by
  have hangle := h.not_mem_attributes (.inl rfl : '<' = '<' ∨ '<' = '>')
  rw [tag_eq, eachClosing_eq]
  exact ⟨clear_tag (by simp [hangle]) (fun v => (hopening _).1) (fun v => (hopening _).2),
    clear_tag (by decide) (fun v => (hclosing ('c' :: 'h' :: '>' :: v)).1)
      (fun v => (hclosing ('c' :: 'h' :: '>' :: v)).2)⟩

/-- The tags of a loop are clear of those of conditionals. -/
theorem clear_loop_if (h : LoopHead) :
    Clear ifOpening ifClosing h.tag ∧ Clear ifOpening ifClosing eachClosing := by
  rw [ifOpening_eq, ifClosing_eq]
  exact clear_loop (by simp) (by simp) h

/-- The tags of a loop are clear of those of alternatives. -/
theorem clear_loop_else (h : LoopHead) :
    Clear elseOpening elseClosing h.tag ∧ Clear elseOpening elseClosing eachClosing := by
  rw [elseOpening_eq, elseClosing_eq]
  exact clear_loop (by simp) (by simp) h

/-- Loops pass as elements do. -/
theorem loop (h : LoopHead) (ht : Woven t) : Woven (h.tag ++ (t ++ eachClosing)) := by
  have hangle := h.not_mem_attributes (.inl rfl : '<' = '<' ∨ '<' = '>')
  have hend := h.not_mem_attributes (.inr rfl : '>' = '<' ∨ '>' = '>')
  refine ⟨?_, (clear_loop_if h).1.append (ht.no_conditional.append (clear_loop_if h).2),
    (clear_loop_else h).1.append (ht.no_alternative.append (clear_loop_else h).2)⟩
  have hname : ∀ x ∈ ['h', 'b', '-', 'e', 'a', 'c', 'h'], isNameLetter x = true := by decide
  have hpair := passes_pair hname (by decide) ⟨hend, hangle⟩ (.inr (attributes_head h))
    (by simp [attributes_last]) ht.passes
  simpa [tag_eq, eachClosing_eq] using hpair

/-- The blocks of a condition keep a text woven. -/
theorem underCondition (c : Text) (h : Woven t) : Woven (underCondition c t) :=
  @underCondition_related (fun t _ => Woven t) append of_not_mem c t t h

/-- The blocks of a condition with an alternative keep texts woven. -/
theorem underConditionElse (c : Text) (ht : Woven t) (hu : Woven u) :
    Woven (underConditionElse c t u) :=
  @underConditionElse_related (fun t _ => Woven t) append of_not_mem c t t u u ht hu

end Woven

/-- An escaped condition is decoded to itself, but for braces around it. -/
theorem decodeCondition_escape (c : Text) : decodeCondition (some (escape c)) = unwrapped c := by
  rw [decodeCondition, decodeReferences_escape]
  rfl

/-- A conditional with a woven body is lowered to the body under its condition. -/
theorem lowerConditional_of_woven (c : Text) {body : Text} (h : Woven body) :
    lowerConditional (conditionalKind.hit c body) = underCondition c body := by
  have hcondition : decodeCondition (conditionalKind.hit c body).condition = unwrapped c :=
    decodeCondition_escape c
  rw [lowerConditional, underCondition, hcondition]
  cases Condition.validateText (unwrapped c) with
  | ok condition => simp [shownConditional, conditionalKind, alternative?_of_passes h.passes]
  | error => simp [hiddenConditional, conditionalKind, alternative?_of_passes h.passes]

/-- A conditional with an alternative between woven texts is lowered to both branches. -/
theorem lowerConditional_alternative (c : Text) {before alternative : Text} (after : Text)
    (hbefore : Woven before) (halternative : Woven alternative) :
    lowerConditional (conditionalKind.hit c (before ++ (elseOpening ++ (alternative ++
      (elseClosing ++ after))))) = underConditionElse c alternative (before ++ after) := by
  have hfound : alternative? (before ++ (elseOpening ++ (alternative ++ (elseClosing ++ after)))) =
      some ⟨before, alternative, after⟩ :=
    alternative?_append hbefore.passes halternative.no_alternative
  have hcondition : decodeCondition (conditionalKind.hit c (before ++ (elseOpening ++ (alternative ++
      (elseClosing ++ after))))).condition = unwrapped c := decodeCondition_escape c
  rw [lowerConditional, underConditionElse, hcondition]
  cases Condition.validateText (unwrapped c) with
  | ok condition => simp [shownConditional, conditionalKind, hfound]
  | error => simp [hiddenConditional, conditionalKind, hfound]

namespace Outline

/-- The text of an outline with its conditionals lowered is woven. -/
theorem woven_decided (o : Outline) : Woven o.decided := by
  induction o with
  | done => exact .of_not_mem (by simp [decided])
  | text t plain rest ih => exact (Woven.of_not_mem plain).append ih
  | reference path plain rest ih =>
    exact (Woven.of_not_mem (angle_not_mem_braced plain)).append ih
  | element e inner rest ihi ihr => exact (ihi.element e).append ihr
  | conditional c body rest ihb ihr => exact (ihb.underCondition c).append ihr
  | choice c before alternative after rest ihb iha ihf ihr =>
    exact (iha.underConditionElse c (ihb.append ihf)).append ihr
  | loop h body rest ihb ihr => exact (ihb.loop h.toLoopHead).append ihr

/-- **Conditionals.** The written text settles to the decided one. -/
theorem settlesTo_decided (o : Outline) : SettlesTo conditionalKind o.written o.decided := by
  induction o with
  | done => exact settlesTo_of_clear clear_nil
  | text t plain rest ih =>
    exact (settlesTo_of_clear (Woven.of_not_mem plain).no_conditional).append ih
  | reference path plain rest ih =>
    exact (settlesTo_of_clear
      (Woven.of_not_mem (angle_not_mem_braced plain)).no_conditional).append ih
  | element e inner rest ihi ihr =>
    have hopening : Clear ifOpening ifClosing e.opening :=
      e.tight_opening.untagged.clear (by decide) (by decide)
    have hclosing : Clear ifOpening ifClosing e.closing :=
      e.tight_closing.untagged.clear (by decide) (by decide)
    exact (SettlesTo.append (settlesTo_of_clear hopening)
      (ihi.append (settlesTo_of_clear hclosing))).append ihr
  | conditional c body rest ihb ihr =>
    exact (ihb.block (k := conditionalKind) (lowerConditional_of_woven c body.woven_decided)
      (body.woven_decided.underCondition c).no_conditional).append ihr
  | choice c before alternative after rest ihb iha ihf ihr =>
    have hopening : Clear ifOpening ifClosing elseOpening := by
      rw [ifOpening_eq, ifClosing_eq, elseOpening_eq]
      exact clear_tag (by decide) (by simp) (by simp)
    have hclosing : Clear ifOpening ifClosing elseClosing := by
      rw [ifOpening_eq, ifClosing_eq, elseClosing_eq]
      exact clear_tag (by decide) (by simp) (by simp)
    -- for conditionals the tags of the alternative are text of the body
    have hbody : SettlesTo conditionalKind _ _ :=
      ihb.append ((settlesTo_of_clear hopening).append (iha.append
        ((settlesTo_of_clear hclosing).append ihf)))
    have hblock := hbody.block
      (lowerConditional_alternative c after.decided before.woven_decided alternative.woven_decided)
      (alternative.woven_decided.underConditionElse c
        (before.woven_decided.append after.woven_decided)).no_conditional
    exact hblock.append ihr
  | loop h body rest ihb ihr =>
    obtain ⟨hopening, hclosing⟩ := Woven.clear_loop_if h.toLoopHead
    exact (SettlesTo.append (settlesTo_of_clear hopening)
      (ihb.append (settlesTo_of_clear hclosing))).append ihr

end Outline

/-! ### Loops -/

/-- A loop as it is written is lowered to its block. -/
theorem lowerLoop_hit (h : LoopHead) (body : Text) :
    lowerLoop (loopKind.hit h body) = h.block body := by
  have hname : (h.itemVar.filter fun name => !name.isEmpty) = h.itemVar := by
    cases hv : h.itemVar with
    | none => rfl
    | some v =>
      have : v ≠ [] := fun he => h.itemVar_ne_nil (he ▸ hv)
      simp [this]
  have hdecode : decodeReferences ∘ escape = id := funext decodeReferences_escape
  simp only [lowerLoop, loopKind, LoopHead.found, decodeReferences_escape, Option.map_map, hdecode,
    Option.map_id, id_eq, hname, LoopHead.block]

/-- What lowering loops needs of texts, for loops with some property: it holds of runs and of the tags
of elements, it is kept by joining texts and by naming the item of a loop, and no pseudo-tag starts
where it holds. -/
structure Keeps (P : Text → Prop) (ok : PlainHead → Prop) : Prop where
  of_not_mem : ∀ {t}, '<' ∉ t → P t
  append : ∀ {t u}, P t → P u → P (t ++ u)
  shell : ∀ e : Shell, P e.opening ∧ P e.closing
  nameItem : ∀ {h : PlainHead} {t}, ok h → P t → P (nameItem h.array (itemName h.itemVar) t)
  untagged : ∀ {t}, P t → Untagged t

namespace Outline

/-- A property of every loop of an outline. -/
def EveryLoop (ok : PlainHead → Prop) : Outline → Prop
  | done => True
  | text _ _ rest | reference _ _ rest => rest.EveryLoop ok
  | element _ inner rest => inner.EveryLoop ok ∧ rest.EveryLoop ok
  | conditional _ body rest => body.EveryLoop ok ∧ rest.EveryLoop ok
  | choice _ before alternative after rest =>
    before.EveryLoop ok ∧ alternative.EveryLoop ok ∧ after.EveryLoop ok ∧ rest.EveryLoop ok
  | loop h body rest => ok h ∧ body.EveryLoop ok ∧ rest.EveryLoop ok

/-- What holds of every loop of two outlines holds of every loop of both. -/
theorem everyLoop_append {ok : PlainHead → Prop} {o p : Outline} :
    (o.append p).EveryLoop ok ↔ o.EveryLoop ok ∧ p.EveryLoop ok := by
  induction o <;> simp_all [append, EveryLoop, and_assoc]

/-- What holds of every loop may be replaced by what follows from it. -/
theorem EveryLoop.imp {ok fine : PlainHead → Prop} {o : Outline} (h : o.EveryLoop ok)
    (himp : ∀ head, ok head → fine head) : o.EveryLoop fine := by
  induction o <;> simp_all [EveryLoop]

instance EveryLoop.decidable {ok : PlainHead → Prop} [DecidablePred ok] :
    (o : Outline) → Decidable (o.EveryLoop ok)
  | done => .isTrue trivial
  | text _ _ rest | reference _ _ rest => EveryLoop.decidable rest
  | element _ inner rest =>
    have : Decidable (inner.EveryLoop ok) := EveryLoop.decidable inner
    have : Decidable (rest.EveryLoop ok) := EveryLoop.decidable rest
    inferInstanceAs (Decidable (_ ∧ _))
  | conditional _ body rest =>
    have : Decidable (body.EveryLoop ok) := EveryLoop.decidable body
    have : Decidable (rest.EveryLoop ok) := EveryLoop.decidable rest
    inferInstanceAs (Decidable (_ ∧ _))
  | choice _ before alternative after rest =>
    have : Decidable (before.EveryLoop ok) := EveryLoop.decidable before
    have : Decidable (alternative.EveryLoop ok) := EveryLoop.decidable alternative
    have : Decidable (after.EveryLoop ok) := EveryLoop.decidable after
    have : Decidable (rest.EveryLoop ok) := EveryLoop.decidable rest
    inferInstanceAs (Decidable (_ ∧ _ ∧ _ ∧ _))
  | loop h body rest =>
    have : Decidable (body.EveryLoop ok) := EveryLoop.decidable body
    have : Decidable (rest.EveryLoop ok) := EveryLoop.decidable rest
    inferInstanceAs (Decidable (ok h ∧ _ ∧ _))

end Outline

namespace Keeps

variable {P : Text → Prop} {ok : PlainHead → Prop} (hP : Keeps P ok)

include hP

/-- Texts that are kept are clear of the tags of loops. -/
theorem clear {t : Text} (h : P t) : Clear eachOpening eachClosing t :=
  (hP.untagged h).clear (by decide) (by decide)

/-- The block of a loop that is fine keeps what its body keeps. -/
theorem block {h : PlainHead} (hok : ok h) {body : Text} (hbody : P body) : P (h.block body) := by
  refine hP.append (hP.append (hP.of_not_mem ?_) (hP.nameItem hok hbody)) (hP.of_not_mem (by decide))
  have harray := h.angle_not_mem_array
  cases hv : h.itemVar with
  | none => simp [loopOpening, braced, harray]
  | some v =>
    have hvar := h.angle_not_mem_itemVar v hv
    simp [loopOpening, braced, harray, hvar]

end Keeps

/-- A text settles to another one with some property. -/
def Reaches (P : Text → Prop) (t t' : Text) : Prop := SettlesTo loopKind t t' ∧ P t'

namespace Keeps

variable {P : Text → Prop} {ok : PlainHead → Prop} (hP : Keeps P ok)

include hP

/-- A text without loops is what it settles to. -/
theorem reaches_self {t : Text} (h : P t) : Reaches P t t :=
  ⟨settlesTo_of_clear (hP.clear h), h⟩

/-- Texts side by side settle side by side. -/
theorem reaches_append {t t' u u' : Text} (ht : Reaches P t t') (hu : Reaches P u u') :
    Reaches P (t ++ u) (t' ++ u') := ⟨ht.1.append hu.1, hP.append ht.2 hu.2⟩

/-- **Loops.** The decided text settles to the template. -/
theorem reaches_template (o : Outline) (ho : o.EveryLoop ok) : Reaches P o.decided o.template := by
  have append := @hP.reaches_append
  have plain : ∀ {t}, '<' ∉ t → Reaches P t t := fun h => hP.reaches_self (hP.of_not_mem h)
  induction o with
  | done => exact plain (by simp [Outline.decided])
  | text t ht rest ih => exact append (plain ht) (ih ho)
  | reference path hpath rest ih => exact append (plain (angle_not_mem_braced hpath)) (ih ho)
  | element e inner rest ihi ihr =>
    obtain ⟨hopening, hclosing⟩ := hP.shell e
    exact append (append (hP.reaches_self hopening)
      (append (ihi ho.1) (hP.reaches_self hclosing))) (ihr ho.2)
  | conditional c body rest ihb ihr =>
    exact append (underCondition_related append plain c (ihb ho.1)) (ihr ho.2)
  | choice c before alternative after rest ihb iha ihf ihr =>
    obtain ⟨hbefore, halternative, hafter, hrest⟩ := ho
    exact append (underConditionElse_related append plain c (iha halternative)
      (append (ihb hbefore) (ihf hafter))) (ihr hrest)
  | loop h body rest ihb ihr =>
    obtain ⟨hok, hbody, hrest⟩ := ho
    have hblock := hP.block hok (ihb hbody).2
    have hsettles := (ihb hbody).1.block (lowerLoop_hit h.toLoopHead body.template)
      (hP.clear hblock)
    exact append ⟨hsettles, hblock⟩ (ihr hrest)

end Keeps

/-- A loop over a path without a space and without `>`. -/
def PlainHead.IsUnspaced (h : PlainHead) : Prop := ' ' ∉ h.array ∧ '>' ∉ h.array

instance : DecidablePred PlainHead.IsUnspaced := fun h =>
  inferInstanceAs (Decidable (' ' ∉ h.array ∧ '>' ∉ h.array))

/-- A loop whose item variable, if it has one, begins with neither `h` nor `/`. -/
def PlainHead.IsUnlike (h : PlainHead) : Prop :=
  ∀ v ∈ h.itemVar, v.head? ≠ some 'h' ∧ v.head? ≠ some '/'

instance : DecidablePred PlainHead.IsUnlike := fun h =>
  inferInstanceAs (Decidable (∀ v ∈ h.itemVar, v.head? ≠ some 'h' ∧ v.head? ≠ some '/'))

/-- Loops with unspaced arrays keep texts tight. -/
theorem keeps_tight : Keeps Tight PlainHead.IsUnspaced where
  of_not_mem := tight_of_not_mem
  append := Tight.append
  shell e := ⟨e.tight_opening, e.tight_closing⟩
  nameItem {h} _ hok ht := by
    refine ht.nameItem hok.1 hok.2 ?_
    cases hv : h.itemVar with
    | none => decide
    | some v => exact h.angle_not_mem_itemVar v hv
  untagged := Tight.untagged

/-- Loops with arrays that are unlike tags keep texts untagged. -/
theorem keeps_untagged : Keeps Untagged PlainHead.IsUnlike where
  of_not_mem h := (tight_of_not_mem h).untagged
  append := Clear.append
  shell e := ⟨e.tight_opening.untagged, e.tight_closing.untagged⟩
  nameItem {h} _ hok ht := by
    refine ht.nameItem ?_
    cases hv : h.itemVar with
    | none => exact ⟨by decide, by decide, by decide, by decide⟩
    | some v =>
      exact ⟨fun he => h.itemVar_ne_nil (he ▸ hv), h.angle_not_mem_itemVar v hv, (hok v hv).1,
        (hok v hv).2⟩
  untagged := id

namespace Outline

/-- An outline none of whose loops can name its item inside the name of a tag, or none of whose items
has a name that makes a pseudo-tag there. -/
def Steady (o : Outline) : Prop :=
  o.EveryLoop PlainHead.IsUnspaced ∨ o.EveryLoop PlainHead.IsUnlike

instance : DecidablePred Steady := fun o =>
  inferInstanceAs
    (Decidable (o.EveryLoop PlainHead.IsUnspaced ∨ o.EveryLoop PlainHead.IsUnlike))

/-- The loops of a steady outline settle to its template. -/
theorem Steady.settlesTo_template {o : Outline} (h : o.Steady) :
    SettlesTo loopKind o.decided o.template := by
  rcases h with h | h
  · exact (keeps_tight.reaches_template o h).1
  · exact (keeps_untagged.reaches_template o h).1

end Outline

/-! ### Both steps -/

/-- A text that settles to another one without conditionals, and that one to a template, is lowered to
the template, and nothing fails. -/
theorem lowerTags_of_settlesTo {t decided template : Text}
    (hdecided : SettlesTo conditionalKind t decided) (htemplate : SettlesTo loopKind decided template)
    (journal : Journal) : ∃ journal', lowerTags t journal = (.ok template, journal') := by
  obtain ⟨hdecided, hconditionals⟩ := hdecided.settle
  have hsettled := htemplate.pass?_eq_none
  obtain ⟨htemplate, hloops⟩ := htemplate.settle
  rw [← htemplate] at hsettled
  have hall : lowerLoops decided = settle loopKind.match? loopKind.lower (decided.length + 1) decided :=
    lowerLoops_eq hsettled
  rw [← hall] at htemplate hloops
  change (lowerConditionals t).1 = decided at hdecided
  -- what is noted down of a block can be read back, since it was written with escapes
  have noteConditional_ok : ∀ c ∈ (lowerConditionals t).2, ∀ journal,
      ∃ journal', noteConditional c journal = (.ok (), journal') := by
    intro c hc journal
    obtain ⟨condition, body, rfl⟩ := hconditionals c hc
    exact ⟨_, noteConditional_of_ok (by simp [conditionalKind]) journal⟩
  have noteLoop_ok : ∀ l ∈ (lowerLoops decided).2, ∀ journal,
      ∃ journal', noteLoop l journal = (.ok (), journal') := by
    intro l hl journal
    obtain ⟨head, body, rfl⟩ := hloops l hl
    have hitem : checkReferences ((head.itemVar.map escape).getD []) = .ok () := by
      cases head.itemVar with
      | none => exact checkReferences_escape []
      | some v => exact checkReferences_escape v
    exact ⟨_, noteLoop_of_ok (checkReferences_escape head.array) hitem journal⟩
  obtain ⟨noted, hnoted⟩ := forM_note noteConditional_ok journal
  obtain ⟨journal', hjournal'⟩ := forM_note noteLoop_ok noted
  refine ⟨journal', ?_⟩
  rw [lowerTags, hdecided, Work.bind_of_ok hnoted, Work.bind_of_ok hjournal', lowered, hdecided,
    htemplate]
  rfl

/-- **Compilation.** Lowering the written text of a steady outline is compiling the outline, and it
does not fail. -/
theorem Outline.lowerTags_written {o : Outline} (h : o.Steady) (journal : Journal) :
    ∃ journal', lowerTags o.written journal = (.ok o.template, journal') :=
  lowerTags_of_settlesTo o.settlesTo_decided h.settlesTo_template journal

end Stencil.Template
