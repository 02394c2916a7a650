import Stencil.Proofs.Template.Content

/-!
# Reading a template

`Content.read` reads the text of a template: it cuts the text at its tags and keeps a stack of the blocks
that are open. It knows loops, conditional blocks with and without an alternative, and references; all
other tags, and blocks that are not closed as they were opened, are not read.

The main statement is `Content.read_written`: **a readable body is read off its text.** So the meaning of
a template can be given on bodies, and what is proved about a body holds of the text.
-/

namespace Stencil.Template

open Text

/-! ### Tags -/

/-- Where the cutting of a text stands. -/
inductive Cursor where
  /-- In a run. -/
  | run (t : Text)
  /-- In a tag behind a run. -/
  | tag (before inner : Text)

/-- Cuts a text at its tags: every tag with the run before it, and the last run. -/
def cutTags : Cursor → Text → Option (List (Text × Text) × Text)
  | .run t, '\x7b' :: '\x7b' :: cs => cutTags (.tag t []) cs
  | .run t, c :: cs => cutTags (.run (t ++ [c])) cs
  | .run t, [] => some ([], t)
  | .tag t u, '\x7d' :: '\x7d' :: cs =>
    (cutTags (.run []) cs).map fun (tags, last) => ((t, u) :: tags, last)
  | .tag t u, c :: cs => cutTags (.tag t (u ++ [c])) cs
  | .tag _ _, [] => none

/-- What a tag is for. -/
inductive TemplateTag where
  /-- A reference. -/
  | reference (path : Text)
  /-- The opening of a loop. -/
  | loop (array : Text) (itemVar : Option Text)
  /-- The opening of a conditional block. -/
  | conditional (isNegated : Bool) (path : Text)
  /-- What stands before an alternative. -/
  | otherwise
  /-- The closing of a loop. -/
  | endLoop
  /-- The closing of a conditional block. -/
  | endConditional (isNegated : Bool)
  deriving DecidableEq, Repr

/-- The word before the array of a loop. -/
def eachWord : Text := ['#', 'e', 'a', 'c', 'h', ' ']

/-- The word between the array of a loop and the name of its item. -/
def asWord : Text := [' ', 'a', 's', ' ', '|']

/-- The array of a loop and the name of its item, as they stand in its opening tag. -/
def TemplateTag.readLoop (t : Text) : Option TemplateTag :=
  match cut? asWord t with
  | none => some (.loop t none)
  | some (array, rest) =>
    match cut? ['|'] rest with
    | some (name, []) => some (.loop array (some name))
    | _ => none

/-- Reads what stands between braces. -/
def TemplateTag.read (inner : Text) : Option TemplateTag :=
  match inner with
  | '#' :: rest =>
    match after? "each ".toList rest, after? "if ".toList rest, after? "unless ".toList rest with
    | some t, _, _ => readLoop t
    | none, some path, _ => some (.conditional false path)
    | none, none, some path => some (.conditional true path)
    | none, none, none => none
  | '/' :: rest =>
    if rest = "each".toList then some .endLoop
    else if rest = "if".toList then some (.endConditional false)
    else if rest = "unless".toList then some (.endConditional true)
    else none
  | _ => if inner = "else".toList then some .otherwise else some (.reference inner)

/-! ### Blocks -/

/-- A block that is open. -/
inductive OpenBlock where
  /-- A loop. -/
  | loop (array : Text) (itemVar : Option Text)
  /-- A conditional block. -/
  | conditional (isNegated : Bool) (path : Text)
  /-- A conditional block, in its alternative. -/
  | choice (isNegated : Bool) (path : Text) (body : Content)

/-- What is read so far: the innermost body, and the blocks around it with the bodies before them. -/
structure Progress where
  /-- The innermost body. -/
  body : Content
  /-- The blocks that are open, innermost first. -/
  blocks : List (Content × OpenBlock)

/-- Reads a tag. -/
def Progress.read (p : Progress) : TemplateTag → Option Progress
  | .reference path => some ⟨p.body.append (.reference [] path (.text [])), p.blocks⟩
  | .loop array itemVar => some ⟨.text [], (p.body, .loop array itemVar) :: p.blocks⟩
  | .conditional n path => some ⟨.text [], (p.body, .conditional n path) :: p.blocks⟩
  | .otherwise =>
    match p.blocks with
    | (before, .conditional n path) :: rest =>
      some ⟨.text [], (before, .choice n path p.body) :: rest⟩
    | _ => none
  | .endLoop =>
    match p.blocks with
    | (before, .loop array itemVar) :: rest =>
      some ⟨before.append (.loop [] array itemVar p.body (.text [])), rest⟩
    | _ => none
  | .endConditional n =>
    match p.blocks with
    | (before, .conditional n' path) :: rest =>
      if n' = n then some ⟨before.append (.conditional [] n path p.body (.text [])), rest⟩ else none
    | (before, .choice n' path body) :: rest =>
      if n' = n then some ⟨before.append (.choice [] n path body p.body (.text [])), rest⟩ else none
    | _ => none

/-- Reads tags with the runs before them. -/
def Progress.readAll (p : Progress) : List (Text × Text) → Option Progress
  | [] => some p
  | (run, inner) :: rest => do
    let tag ← TemplateTag.read inner
    let p ← Progress.read ⟨p.body.append (.text run), p.blocks⟩ tag
    p.readAll rest

/-- Reads the text of a template. -/
def Content.read (t : Text) : Option Content := do
  let (tags, last) ← cutTags (.run []) t
  let p ← Progress.readAll ⟨.text [], []⟩ tags
  if p.blocks.isEmpty then some (p.body.append (.text last)) else none

/-! ### Cutting what is written -/

/-- Text without braces adds to the run. -/
theorem cutTags_run {u : Text} (h : '\x7b' ∉ u) (t v : Text) :
    cutTags (.run t) (u ++ v) = cutTags (.run (t ++ u)) v := by
  induction u generalizing t with
  | nil => simp
  | cons c cs ih =>
    have hc : c ≠ '\x7b' := fun he => h (by simp [he])
    have hcs : '\x7b' ∉ cs := fun hm => h (by simp [hm])
    have hstep : cutTags (.run t) (c :: (cs ++ v)) = cutTags (.run (t ++ [c])) (cs ++ v) := by
      rw [cutTags]
      simp [hc]
    rw [List.cons_append, hstep, ih hcs]
    simp

/-- Text without closing braces adds to the tag. -/
theorem cutTags_tag {p : Text} (h : '\x7d' ∉ p) (t u v : Text) :
    cutTags (.tag t u) (p ++ v) = cutTags (.tag t (u ++ p)) v := by
  induction p generalizing u with
  | nil => simp
  | cons c cs ih =>
    have hc : c ≠ '\x7d' := fun he => h (by simp [he])
    have hcs : '\x7d' ∉ cs := fun hm => h (by simp [hm])
    have hstep : cutTags (.tag t u) (c :: (cs ++ v)) = cutTags (.tag t (u ++ [c])) (cs ++ v) := by
      rw [cutTags]
      simp [hc]
    rw [List.cons_append, hstep, ih hcs]
    simp

/-- A tag behind a run is cut off. -/
theorem cutTags_braced {t p : Text} (ht : '\x7b' ∉ t) (hp : '\x7d' ∉ p) (v : Text) :
    cutTags (.run []) (t ++ (braced p ++ v)) =
      (cutTags (.run []) v).map fun (tags, last) => ((t, p) :: tags, last) := by
  have hbraced : braced p ++ v = '\x7b' :: '\x7b' :: (p ++ '\x7d' :: '\x7d' :: v) := by
    simp [braced]
  rw [cutTags_run ht, hbraced, cutTags, cutTags_tag hp, cutTags]
  simp

/-! ### Reading what is written -/

/-- What stands between the braces of the opening tag of a loop. -/
def loopInside (array : Text) : Option Text → Text
  | some name => eachWord ++ (array ++ (asWord ++ (name ++ ['|'])))
  | none => eachWord ++ array

/-- The inside of the opening tag of a loop, in braces, is the tag. -/
theorem braced_loopInside (array : Text) (itemVar : Option Text) :
    braced (loopInside array itemVar) = loopOpening array itemVar := by
  have heach : "#each ".toList = eachWord := by decide
  have has : " as |".toList = asWord := by decide
  cases itemVar with
  | none => rw [loopInside, loopOpening, heach]
  | some name =>
    rw [loopInside, loopOpening, heach, has]
    simp only [List.append_assoc]

/-- A path that is read as a reference. -/
def IsReference (path : Text) : Prop :=
  '\x7d' ∉ path ∧ TemplateTag.read path = some (.reference path)

instance : DecidablePred IsReference := fun path =>
  inferInstanceAs (Decidable ('\x7d' ∉ path ∧ TemplateTag.read path = some (.reference path)))

/-- A name of an item that can stand between bars. -/
def IsItemName (name : Text) : Prop := '|' ∉ name ∧ '\x7d' ∉ name

instance : DecidablePred IsItemName := fun name =>
  inferInstanceAs (Decidable ('|' ∉ name ∧ '\x7d' ∉ name))

private theorem not_prefix_of_not_mem {c : Char} {word array : Text} (h : c ∉ array) (t : Text) :
    EveryTail (fun s => ¬ c :: word <+: s ++ t) array :=
  everyTail_of_forall_mem fun d hd s hp => by
    have hsame : c = d := (List.cons_prefix_cons.mp hp).1
    exact h (hsame ▸ hd)

/-- The opening tag of a loop is read with its array and item variable. -/
theorem read_loopInside {array : Text} {itemVar : Option Text} (ha : IsBare array)
    (hv : ∀ v ∈ itemVar, IsItemName v) :
    TemplateTag.read (loopInside array itemVar) = some (.loop array itemVar) := by
  have hspace : ' ' ∉ array := ha ' ' (by decide)
  have hread : ∀ t, TemplateTag.read (eachWord ++ t) = TemplateTag.readLoop t := fun _ => rfl
  have hnone : ∀ t, EveryTail (fun s => ¬ asWord <+: s ++ t) array := not_prefix_of_not_mem hspace
  cases itemVar with
  | none =>
    have hcut : cut? asWord array = none :=
      cut?_eq_none (by decide) ((hnone []).imp fun s hs => by rwa [List.append_nil] at hs)
    rw [loopInside, hread, TemplateTag.readLoop, hcut]
  | some v =>
    obtain ⟨hbar, -⟩ := hv v rfl
    have hcut : cut? asWord (array ++ (asWord ++ (v ++ ['|']))) = some (array, v ++ ['|']) :=
      cut?_append (hnone _)
    have hname : cut? ['|'] (v ++ (['|'] ++ [])) = some (v, []) :=
      cut?_append (not_prefix_of_not_mem hbar _)
    rw [List.append_nil] at hname
    rw [loopInside, hread, TemplateTag.readLoop, hcut]
    simp only [hname]

/-- The opening tag of a conditional is read with its sign and path. -/
theorem read_conditional (n : Bool) (path : Text) :
    TemplateTag.read ('#' :: (helperName n ++ ' ' :: path)) = some (.conditional n path) := by
  cases n <;> rfl

theorem read_endConditional (n : Bool) :
    TemplateTag.read ('/' :: helperName n) = some (.endConditional n) := by
  cases n <;> decide

namespace Content

/-- A body that is read off its text: there are no braces in its runs, its paths and names can stand in
tags, and no reference is written like another tag. -/
def Readable : Content → Prop
  | text t => '\x7b' ∉ t
  | reference t p r => '\x7b' ∉ t ∧ IsReference p ∧ r.Readable
  | loop t a v b r =>
    '\x7b' ∉ t ∧ (IsBare a ∧ ∀ name ∈ v, IsItemName name) ∧ b.Readable ∧ r.Readable
  | conditional t _ p b r => '\x7b' ∉ t ∧ '\x7d' ∉ p ∧ b.Readable ∧ r.Readable
  | choice t _ p b a r => '\x7b' ∉ t ∧ '\x7d' ∉ p ∧ b.Readable ∧ a.Readable ∧ r.Readable

section Enclosed

variable {conjuncts : List Text} (hpaths : ∀ x ∈ conjuncts, '\x7d' ∉ (conjunctPath x).2)

include hpaths

/-- The blocks of a condition keep a content readable. -/
theorem readable_enclose {b : Content} (hb : b.Readable) : (b.enclose conjuncts).Readable := by
  induction conjuncts with
  | nil => exact hb
  | cons x xs ih =>
    have hinner := ih fun y hy => hpaths y (by simp [hy])
    exact ⟨List.not_mem_nil, hpaths x (by simp), hinner, List.not_mem_nil⟩

theorem readable_encloseWith {b a : Content} (hb : b.Readable) (ha : a.Readable) :
    (a.encloseWith b conjuncts).Readable := by
  induction conjuncts with
  | nil => exact hb
  | cons x xs ih =>
    have hinner := ih fun y hy => hpaths y (by simp [hy])
    exact ⟨List.not_mem_nil, hpaths x (by simp), hinner, ha, List.not_mem_nil⟩

end Enclosed

/-- The last run. -/
def last : Content → Text
  | text t => t
  | reference _ _ r | loop _ _ _ _ r | conditional _ _ _ _ r | choice _ _ _ _ _ r => r.last

/-- All but the last run. -/
def front : Content → Content
  | text _ => text []
  | reference t p r => reference t p r.front
  | loop t a v b r => loop t a v b r.front
  | conditional t n p b r => conditional t n p b r.front
  | choice t n p b a r => choice t n p b a r.front

/-- The tags of a body, each with the run before it. -/
def tags : Content → List (Text × Text)
  | text _ => []
  | reference t p r => (t, p) :: r.tags
  | loop t a v b r => (t, loopInside a v) :: (b.tags ++ (b.last, "/each".toList) :: r.tags)
  | conditional t n p b r =>
    (t, '#' :: helperName n ++ ' ' :: p) :: (b.tags ++ (b.last, '/' :: helperName n) :: r.tags)
  | choice t n p b a r =>
    (t, '#' :: helperName n ++ ' ' :: p) :: (b.tags ++ (b.last, "else".toList) ::
      (a.tags ++ (a.last, '/' :: helperName n) :: r.tags))

/-- A content is what is before its last text, and this text. -/
theorem append_front_last (b : Content) : b.front.append (.text b.last) = b := by
  induction b <;> simp_all [front, last, append, prepend]

private theorem closing_brace_not_mem_loopInside {a : Text} {v : Option Text} (ha : IsBare a)
    (hv : ∀ name ∈ v, IsItemName name) : '\x7d' ∉ loopInside a v := by
  have hbrace : '\x7d' ∉ a := ha _ (by decide)
  have hopening : '\x7d' ∉ eachWord := by decide
  have hbetween : '\x7d' ∉ asWord := by decide
  have hbar : '\x7d' ∉ ['|'] := by decide
  cases v with
  | none => simp only [loopInside, List.mem_append, hopening, hbrace, or_self, not_false_eq_true]
  | some name =>
    simp only [loopInside, List.mem_append, hopening, hbrace, hbetween, hbar, (hv name rfl).2,
      or_self, not_false_eq_true]

private theorem closing_brace_not_mem_conditional (n : Bool) {p : Text} (hp : '\x7d' ∉ p) :
    '\x7d' ∉ '#' :: helperName n ++ ' ' :: p := by
  have hopening : ∀ n : Bool, '\x7d' ∉ '#' :: helperName n := by decide
  have hspace : '\x7d' ≠ ' ' := by decide
  simp only [List.mem_append, List.mem_cons, hp, hspace, or_self] at hopening ⊢
  simpa using hopening n

/-- A body is written tag by tag. -/
theorem written_eq (b : Content) :
    b.written = b.tags.flatMap (fun tag => tag.1 ++ braced tag.2) ++ b.last := by
  induction b with
  | text t => rfl
  | reference t p r ih => simp [written, tags, last, ih]
  | loop t a v b r ihb ihr => simp [written, tags, last, ihb, ihr, braced_loopInside]
  | conditional t n p b r ihb ihr => simp [written, tags, last, ihb, ihr, Block.of]
  | choice t n p b a r ihb iha ihr => simp [written, tags, last, ihb, iha, ihr, Block.of, elseTag]

/-- In a readable body no tag ends before its end, and there are no braces in the runs. -/
theorem Readable.not_mem {b : Content} (h : b.Readable) :
    (∀ tag ∈ b.tags, '\x7b' ∉ tag.1 ∧ '\x7d' ∉ tag.2) ∧ '\x7b' ∉ b.last := by
  have heach : '\x7d' ∉ "/each".toList := by decide
  have helse : '\x7d' ∉ "else".toList := by decide
  have hclosing : ∀ n : Bool, '\x7d' ∉ '/' :: helperName n := by decide
  -- a block has its opening tag, the tags of its body, its closing tag and those behind it
  induction b with
  | text t => exact ⟨by simp [tags], h⟩
  | reference t p r ih =>
    obtain ⟨ht, hp, hr⟩ := h
    refine ⟨fun tag htag => ?_, (ih hr).2⟩
    rcases List.mem_cons.mp htag with rfl | htag
    · exact ⟨ht, hp.1⟩
    · exact (ih hr).1 tag htag
  | loop t a v b r ihb ihr =>
    obtain ⟨ht, ⟨ha, hv⟩, hb, hr⟩ := h
    refine ⟨fun tag htag => ?_, (ihr hr).2⟩
    simp only [tags, List.mem_cons, List.mem_append] at htag
    rcases htag with rfl | htag | rfl | htag
    · exact ⟨ht, closing_brace_not_mem_loopInside ha hv⟩
    · exact (ihb hb).1 tag htag
    · exact ⟨(ihb hb).2, heach⟩
    · exact (ihr hr).1 tag htag
  | conditional t n p b r ihb ihr =>
    obtain ⟨ht, hp, hb, hr⟩ := h
    refine ⟨fun tag htag => ?_, (ihr hr).2⟩
    simp only [tags, List.mem_cons, List.mem_append] at htag
    rcases htag with rfl | htag | rfl | htag
    · exact ⟨ht, closing_brace_not_mem_conditional n hp⟩
    · exact (ihb hb).1 tag htag
    · exact ⟨(ihb hb).2, hclosing n⟩
    · exact (ihr hr).1 tag htag
  | choice t n p b a r ihb iha ihr =>
    obtain ⟨ht, hp, hb, ha, hr⟩ := h
    refine ⟨fun tag htag => ?_, (ihr hr).2⟩
    simp only [tags, List.mem_cons, List.mem_append] at htag
    rcases htag with rfl | htag | rfl | htag | rfl | htag
    · exact ⟨ht, closing_brace_not_mem_conditional n hp⟩
    · exact (ihb hb).1 tag htag
    · exact ⟨(ihb hb).2, helse⟩
    · exact (iha ha).1 tag htag
    · exact ⟨(iha ha).2, hclosing n⟩
    · exact (ihr hr).1 tag htag

/-- The tags of a readable body are read one after the other, in whatever blocks it stands. -/
theorem readAll_tags {b : Content} (h : b.Readable) (before : Content) (blocks : List (Content × OpenBlock))
    (rest : List (Text × Text)) :
    Progress.readAll ⟨before, blocks⟩ (b.tags ++ rest) =
      Progress.readAll ⟨before.append b.front, blocks⟩ rest := by
  have hinner : ∀ b : Content, ((text []).append b.front).append (.text b.last) = b := by
    intro b
    rw [append, prepend_nil, append_front_last]
  have heach : TemplateTag.read "/each".toList = some .endLoop := by decide
  have helse : TemplateTag.read "else".toList = some .otherwise := by decide
  -- a block is opened, its body is read in it, and its closing tag puts it behind `before`
  induction b generalizing before blocks rest with
  | text t => simp [tags, front]
  | reference t p r ih =>
    obtain ⟨-, hp, hr⟩ := h
    simp only [tags, List.cons_append, Progress.readAll, hp.2, Option.bind_eq_bind,
      Option.bind_some, Progress.read, ih hr]
    simp [append_assoc, append, front]
  | loop t a v b r ihb ihr =>
    obtain ⟨-, ⟨ha, hv⟩, hb, hr⟩ := h
    simp only [tags, List.cons_append, List.append_assoc, Progress.readAll,
      read_loopInside ha hv, heach, Option.bind_eq_bind, Option.bind_some, Progress.read, ihb hb,
      hinner, ihr hr]
    simp [append_assoc, append, front]
  | conditional t n p b r ihb ihr =>
    obtain ⟨-, -, hb, hr⟩ := h
    simp only [tags, List.cons_append, List.append_assoc, Progress.readAll, read_conditional,
      read_endConditional, Option.bind_eq_bind, Option.bind_some, Progress.read, ihb hb, hinner,
      if_true, ihr hr]
    simp [append_assoc, append, front]
  | choice t n p b a r ihb iha ihr =>
    obtain ⟨-, -, hb, ha, hr⟩ := h
    simp only [tags, List.cons_append, List.append_assoc, Progress.readAll, read_conditional,
      read_endConditional, helse, Option.bind_eq_bind, Option.bind_some, Progress.read, ihb hb,
      iha ha, hinner, if_true, ihr hr]
    simp [append_assoc, append, front]

end Content

/-- Tags with the runs before them are cut off one after the other. -/
theorem cutTags_flatMap {tags : List (Text × Text)} {last : Text}
    (h : ∀ tag ∈ tags, '\x7b' ∉ tag.1 ∧ '\x7d' ∉ tag.2) (hlast : '\x7b' ∉ last) :
    cutTags (.run []) (tags.flatMap (fun tag => tag.1 ++ braced tag.2) ++ last) =
      some (tags, last) := by
  induction tags with
  | nil =>
    have := cutTags_run hlast [] []
    simpa [cutTags] using this
  | cons tag tags ih =>
    obtain ⟨ht, hp⟩ := h tag (by simp)
    rw [List.flatMap_cons, List.append_assoc, List.append_assoc, cutTags_braced ht hp,
      ih fun tag htag => h tag (by simp [htag])]
    rfl

/-- **Reading.** A readable body is read off its text. -/
theorem Content.read_written {b : Content} (h : b.Readable) : Content.read b.written = some b := by
  obtain ⟨htags, hlast⟩ := h.not_mem
  have hall := b.readAll_tags h (.text []) [] []
  rw [List.append_nil] at hall
  rw [Content.read, written_eq, cutTags_flatMap htags hlast]
  simp only [Option.bind_eq_bind, Option.bind_some, hall, Progress.readAll, List.isEmpty_nil,
    if_true]
  rw [Content.append, Content.prepend_nil, append_front_last]

end Stencil.Template
