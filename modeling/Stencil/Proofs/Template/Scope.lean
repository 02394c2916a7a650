import Mathlib.Data.List.Forall2
import Stencil.Proofs.Template.Reading
import Stencil.Proofs.Template.Trail

/-!
# What references denote

In a loop block `this` is the item of the innermost loop, and the name of an item is that of its own
loop in all blocks inside it, unless an inner loop uses the name again. `denoted` says by this rule
which of the loops around a reference it belongs to.

A `Nest` is markup of nested loops whose arrays are spelled from the root, and of references. A
reference to a field of the item that stands for all items of a loop can be anywhere in the loop; once
the loop is lowered, it begins with the name of the item, or with `this`, whatever stands between the
loop and the reference. The main statement is `Nest.references_lowered`: it tells for every reference of
a nest **exactly when the lowered reference denotes the same field of the item of the same loop.** In the
body of a loop inside the loop, that takes a name which no loop in between uses again; a reference to
a loop without a name for its item is captured there (`Nest.captured_grouped`).
-/

namespace Stencil.Template

open Text

/-! ### References in a template -/

/-- The references of a body, in order, each with the names of the items of the loops around it,
innermost first. -/
def Content.values : Content → List (List (Option Text) × Text)
  | text _ => []
  | reference _ p r => ([], p) :: r.values
  | loop _ _ v b r => b.values.map (fun value => (value.1 ++ [v], value.2)) ++ r.values
  | conditional _ _ _ b r => b.values ++ r.values
  | choice _ _ _ b a r => b.values ++ (a.values ++ r.values)

/-- **Scoping.** The loop whose item a word is, counted from the innermost one: `this` is the item of
the innermost loop, and a name that of the innermost loop that uses it. -/
def itemOf (names : List (Option Text)) (word : Text) : Option ℕ :=
  if word = "this".toList then names.head?.map fun _ => 0
  else names.findIdx? (· == some word)

/-- The loop whose item a path begins with, and the path in the item. -/
def denoted (names : List (Option Text)) (path : Text) : Option (ℕ × Text) :=
  match cut? ['.'] path with
  | some (word, field) => (itemOf names word).map fun position => (position, field)
  | none => none

theorem itemOf_append {inner outer : List (Option Text)} {name : Option Text} {word : Text} :
    itemOf (inner ++ name :: outer) word = some inner.length ↔
      word = "this".toList ∧ inner = [] ∨
        word ≠ "this".toList ∧ name = some word ∧ some word ∉ inner := by
  unfold itemOf
  generalize "this".toList = this
  by_cases hthis : word = this
  · cases inner <;> simp [hthis]
  · rw [if_neg hthis, List.findIdx?_append]
    -- a loop further in that has the name hides this one
    cases hinner : inner.findIdx? (· == some word) with
    | none =>
      have hnot : some word ∉ inner := fun hmem => by
        have := List.findIdx?_eq_none_iff.mp hinner _ hmem
        simp at this
      by_cases hname : name = some word
      · simp [hthis, hnot, hname, List.findIdx?_cons]
      · cases houter : outer.findIdx? (· == some word) with
        | none => simp [hthis, hnot, hname, List.findIdx?_cons, houter]
        | some i =>
          have hlater : i + 1 + inner.length ≠ inner.length := by omega
          have hcons : (name :: outer).findIdx? (· == some word) = some (i + 1) := by
            simp [List.findIdx?_cons, hname, houter]
          simp only [hcons, Option.none_or, Option.map_some, Option.some.injEq, hlater, hthis, hname,
            false_and, and_false, or_self]
    | some i =>
      obtain ⟨hlt, hi, -⟩ := List.findIdx?_eq_some_iff_getElem.mp hinner
      have hmem : some word ∈ inner := by
        have : inner[i] = some word := by simpa using hi
        exact this ▸ List.getElem_mem hlt
      have hne : i ≠ inner.length := by omega
      simp [hthis, hmem, hne]

/-- A path that begins with a word without a dot. -/
theorem denoted_append {word : Text} (h : '.' ∉ word) (names : List (Option Text)) (field : Text) :
    denoted names (word ++ '.' :: field) =
      (itemOf names word).map fun position => (position, field) := by
  have hcut : cut? ['.'] (word ++ (['.'] ++ field)) = some (word, field) :=
    cut?_append (everyTail_of_forall_mem fun c hc s hp => by
      have hsame : '.' = c := (List.cons_prefix_cons.mp hp).1
      exact h (hsame ▸ hc))
  rw [List.singleton_append] at hcut
  rw [denoted, hcut]

/-! ### Nested loops -/

/-- A name for the item of a loop. -/
def IsName (v : Text) : Prop := v ≠ [] ∧ ∀ c ∈ v, isWord c = true

instance : DecidablePred IsName := fun v =>
  inferInstanceAs (Decidable (v ≠ [] ∧ ∀ c ∈ v, isWord c = true))

/-- Other characters than those of words are not in a name. -/
theorem IsName.not_mem {v : Text} (h : IsName v) {c : Char} (hc : isWord c = false) : c ∉ v :=
  fun hmem => by simp [h.2 c hmem] at hc

/-- A loop over an array that is spelled from the root. -/
structure NestLoop where
  /-- The path of the array. -/
  trail : Trail
  /-- The name of the item, if it has one. -/
  itemVar : Option Text
  isName : ∀ v ∈ itemVar, IsName v

namespace NestLoop

variable (l : NestLoop)

/-- The head of the loop. -/
def head : PlainHead where
  array := l.trail.path
  itemVar := l.itemVar
  array_ne_nil := l.trail.path_ne_nil
  itemVar_ne_nil h := (l.isName [] h).1 rfl
  angle_not_mem_array := l.trail.not_mem_path (by decide) (by decide)
  angle_not_mem_itemVar v hv := (l.isName v hv).not_mem (by decide)

/-- What the item begins with in the loop block. -/
def item : Text := itemName l.itemVar

theorem isName_item : IsName l.item := by
  unfold item
  cases hv : l.itemVar with
  | none => decide
  | some v => exact l.isName v hv

/-- A path with the item of the loop named. -/
def name (path : Text) : Text := nameItem l.trail.path l.item path

/-- The array of a loop over names is written without spaces. -/
theorem isUnspaced_head : l.head.IsUnspaced :=
  ⟨l.trail.not_mem_path (by decide) (by decide), l.trail.not_mem_path (by decide) (by decide)⟩

end NestLoop

/-- The path of a field of the item that stands for all items of an array. -/
def Trail.itemField (t : Trail) (field : Text) : Text := representative t.path ++ '.' :: field

/-- Markup of nested loops and references. Each part has the parts behind it as its last argument. -/
inductive Nest where
  /-- Nothing more. -/
  | done
  /-- A run of markup, without braces, and without pseudo-tags. -/
  | text (t : Text) (plain : Tight t ∧ '\x7b' ∉ t) (rest : Nest)
  /-- A reference by names only. -/
  | value (path : Text) (plain : IsDotted path ∧ path ≠ "else".toList) (rest : Nest)
  /-- A reference to a field of the item that stands for all items of an array. -/
  | item (trail : Trail) (field : Text) (plain : IsDotted field) (rest : Nest)
  /-- A loop. -/
  | loop (l : NestLoop) (body rest : Nest)

namespace Nest

/-- The markup, with the pseudo-tags of the loops. -/
def written : Nest → Text
  | done => []
  | text t _ rest => t ++ rest.written
  | value path _ rest => braced path ++ rest.written
  | item trail field _ rest => braced (trail.itemField field) ++ rest.written
  | loop l body rest => l.head.tag ++ (body.written ++ eachClosing) ++ rest.written

/-- The template that the markup is lowered to, inner loops before outer ones. -/
def content : Nest → Content
  | done => .text []
  | text t _ rest => rest.content.prepend t
  | value path _ rest => .reference [] path rest.content
  | item trail field _ rest => .reference [] (trail.itemField field) rest.content
  | loop l body rest => .loop [] l.trail.path l.itemVar (body.content.map l.name l.name) rest.content

/-- The references of a nest, in order, each with the loops around it, innermost first. -/
def values : Nest → List (List NestLoop × Text)
  | done => []
  | text _ _ rest => rest.values
  | value path _ rest => ([], path) :: rest.values
  | item trail field _ rest => ([], trail.itemField field) :: rest.values
  | loop l body rest => body.values.map (fun value => (value.1 ++ [l], value.2)) ++ rest.values

/-! ### Lowering -/

/-- The path of an item's field is without angle brackets. -/
theorem angle_not_mem_itemField (t : Trail) {field : Text} (h : IsDotted field) :
    '<' ∉ t.itemField field := by
  have hpath : '<' ∉ t.path := t.not_mem_path (by decide) (by decide)
  have hfield : '<' ∉ field := h.not_mem (by decide) (by decide)
  simp [Trail.itemField, representative_eq, hpath, hfield]

/-- There are no conditionals in a nest. -/
theorem clear_written (n : Nest) : Clear ifOpening ifClosing n.written := by
  have plain : ∀ {t}, '<' ∉ t → Clear ifOpening ifClosing t := fun h =>
    (tight_of_not_mem h).untagged.clear (by decide) (by decide)
  induction n with
  | done => exact clear_nil
  | text t ht rest ih => exact (ht.1.untagged.clear (by decide) (by decide)).append ih
  | value path hpath rest ih =>
    exact (plain (angle_not_mem_braced (hpath.1.not_mem (by decide) (by decide)))).append ih
  | item trail field hfield rest ih =>
    exact (plain (angle_not_mem_braced (angle_not_mem_itemField trail hfield))).append ih
  | loop l body rest ihb ihr =>
    obtain ⟨hopening, hclosing⟩ := Woven.clear_loop_if l.head.toLoopHead
    exact (hopening.append (ihb.append hclosing)).append ihr

/-- **Lowering.** The markup settles to the template, in which no pseudo-tag is made by naming. -/
theorem reaches_content (n : Nest) : Reaches Tight n.written n.content.written := by
  have plain : ∀ {t}, '<' ∉ t → Reaches Tight t t := fun h =>
    keeps_tight.reaches_self (tight_of_not_mem h)
  induction n with
  | done => exact plain List.not_mem_nil
  | text t ht rest ih =>
    rw [content, Content.written_prepend]
    exact keeps_tight.reaches_append (keeps_tight.reaches_self ht.1) ih
  | value path hpath rest ih =>
    change Reaches Tight _ (braced path ++ rest.content.written)
    exact keeps_tight.reaches_append
      (plain (angle_not_mem_braced (hpath.1.not_mem (by decide) (by decide)))) ih
  | item trail field hfield rest ih =>
    change Reaches Tight _ (braced (trail.itemField field) ++ rest.content.written)
    exact keeps_tight.reaches_append
      (plain (angle_not_mem_braced (angle_not_mem_itemField trail hfield))) ih
  | loop l body rest ihb ihr =>
    have hblock : l.head.block body.content.written =
        loopOpening l.trail.path l.itemVar ++
          ((body.content.map l.name l.name).written ++ braced "/each".toList) := by
      change loopOpening l.trail.path l.itemVar ++ nameItem l.trail.path l.item body.content.written ++
        braced "/each".toList = _
      rw [nameItem_written _ l.trail.isBare_path, List.append_assoc]
      rfl
    have htight := keeps_tight.block l.isUnspaced_head ihb.2
    have hsettles := ihb.1.block (lowerLoop_hit l.head.toLoopHead body.content.written)
      (keeps_tight.clear htight)
    -- a loop is lowered when its body has been, and names the item in what the body came to
    have hall := keeps_tight.reaches_append ⟨hsettles, htight⟩ ihr
    rw [hblock] at hall
    simpa [written, Nest.content, Content.written, loopKind] using hall

end Nest

/-! ### Reading what is lowered -/

/-- A path that is read as a reference, whatever items are named in it: names only, or a field of
something. -/
def IsValuePath (path : Text) : Prop :=
  (IsDotted path ∧ path ≠ "else".toList) ∨
    ∃ owner field, path = owner ++ '.' :: field ∧ IsDotted field ∧ '\x7d' ∉ owner ∧
      owner.head? ≠ some '#' ∧ owner.head? ≠ some '/'

/-- What begins like no other tag is a reference. -/
theorem TemplateTag.read_of_head? {t : Text} (hopen : t.head? ≠ some '#') (hclose : t.head? ≠ some '/')
    (helse : t ≠ "else".toList) : TemplateTag.read t = some (.reference t) := by
  unfold TemplateTag.read
  split
  · simp at hopen
  · simp at hclose
  · rw [if_neg helse]

/-- The path of a value can be referred to. -/
theorem IsValuePath.isReference {path : Text} (h : IsValuePath path) : IsReference path := by
  rcases h with ⟨h, helse⟩ | ⟨owner, field, rfl, hfield, howner, hopen, hclose⟩
  · refine ⟨h.not_mem (by decide) (by decide), TemplateTag.read_of_head? ?_ ?_ helse⟩
    · exact fun he => h.not_mem (by decide) (by decide) (List.mem_of_head? he)
    · exact fun he => h.not_mem (by decide) (by decide) (List.mem_of_head? he)
  · have hbrace : '\x7d' ∉ field := hfield.not_mem (by decide) (by decide)
    refine ⟨by simp [howner, hbrace], TemplateTag.read_of_head? ?_ ?_ ?_⟩
    · cases owner <;> simp_all
    · cases owner <;> simp_all
    · intro he
      have hdot : '.' ∈ "else".toList := by rw [← he]; simp
      exact absurd hdot (by decide)

namespace NestLoop

variable (l : NestLoop)

/-- Behind the last bracket of a path nothing is named. -/
theorem name_append {v : Text} (h : ']' ∉ v) (u : Text) : l.name (u ++ v) = l.name u ++ v :=
  nameItem_append h u

/-- A loop names no item in a text without brackets. -/
theorem name_of_bracket_not_mem {t : Text} (h : '[' ∉ t) : l.name t = t :=
  (itemless_of_bracket_not_mem h).nameItem _

/-- Naming items brings none but the characters of names into a text. -/
theorem not_mem_name {t : Text} {c : Char} (hc : isWord c = false) (h : c ∉ t) : c ∉ l.name t :=
  fun hmem => (mem_of_mem_nameItem hmem).elim h (l.isName_item.not_mem hc)

theorem head?_name_ne {t : Text} {c : Char} (hc : isWord c = false) (h : t.head? ≠ some c) :
    (l.name t).head? ≠ some c := by
  intro he
  have hhead : (l.name t).head? = t.head? ∨ (l.name t).head? = l.item.head? :=
    head?_nameItem l.isName_item.1
  rcases hhead with hsame | hname
  · exact h (hsame ▸ he)
  · exact l.isName_item.not_mem hc (List.mem_of_head? (hname ▸ he))

/-- The path of a value stays one when items are named. -/
theorem isValuePath_name {path : Text} (h : IsValuePath path) : IsValuePath (l.name path) := by
  rcases h with h | ⟨owner, field, rfl, hfield, howner, hopen, hclose⟩
  · rw [l.name_of_bracket_not_mem (h.1.not_mem (by decide) (by decide))]
    exact .inl h
  · have hbracket : ']' ∉ '.' :: field := by
      simp [hfield.not_mem (c := ']') (by decide) (by decide)]
    rw [l.name_append hbracket]
    exact .inr ⟨_, field, rfl, hfield, l.not_mem_name (by decide) howner,
      l.head?_name_ne (by decide) hopen, l.head?_name_ne (by decide) hclose⟩

/-- A name stays as it is when items are named. -/
theorem isName_name {v : Text} (h : IsName v) : l.name v = v :=
  l.name_of_bracket_not_mem (h.not_mem (by decide))

end NestLoop

/-- A body of loops and references that stays readable when items are named. -/
def Content.IsPlain : Content → Prop
  | text t => '\x7b' ∉ t
  | reference t p r => '\x7b' ∉ t ∧ IsValuePath p ∧ r.IsPlain
  | loop t a v b r => '\x7b' ∉ t ∧ (IsBare a ∧ ∀ name ∈ v, IsName name) ∧ b.IsPlain ∧ r.IsPlain
  | conditional .. | choice .. => False

namespace Content

/-- Text without braces in front keeps a content plain. -/
theorem IsPlain.prepend {b : Content} {t : Text} (ht : '\x7b' ∉ t) (h : b.IsPlain) :
    (b.prepend t).IsPlain := by
  cases b <;> simp_all [IsPlain]

/-- Naming items keeps a content plain. -/
theorem IsPlain.map {b : Content} (h : b.IsPlain) (l : NestLoop) : (b.map l.name l.name).IsPlain := by
  have hrun : ∀ {t : Text}, '\x7b' ∉ t → '\x7b' ∉ l.name t := l.not_mem_name (by decide)
  have hword : ∀ c ∈ tagChars, isWord c = false := by decide
  induction b with
  | text t => exact hrun h
  | reference t p r ih => exact ⟨hrun h.1, l.isValuePath_name h.2.1, ih h.2.2⟩
  | loop t a v b r ihb ihr =>
    obtain ⟨ht, ⟨ha, hv⟩, hb, hr⟩ := h
    refine ⟨hrun ht, ⟨fun c hc => l.not_mem_name (hword c hc) (ha c hc), ?_⟩, ihb hb, ihr hr⟩
    intro name hname
    obtain ⟨v, hmem, rfl⟩ := Option.map_eq_some_iff.mp hname
    rw [l.isName_name (hv v hmem)]
    exact hv v hmem
  | conditional => exact h
  | choice => exact h

/-- A plain content can be read back. -/
theorem IsPlain.readable {b : Content} (h : b.IsPlain) : b.Readable := by
  induction b with
  | text t => exact h
  | reference t p r ih => exact ⟨h.1, h.2.1.isReference, ih h.2.2⟩
  | loop t a v b r ihb ihr =>
    obtain ⟨ht, ⟨ha, hv⟩, hb, hr⟩ := h
    exact ⟨ht, ⟨ha, fun name hname => ⟨(hv name hname).not_mem (by decide),
      (hv name hname).not_mem (by decide)⟩⟩, ihb hb, ihr hr⟩
  | conditional => exact h.elim
  | choice => exact h.elim

@[simp] theorem values_prepend (b : Content) (t : Text) : (b.prepend t).values = b.values := by
  cases b <;> rfl

/-- With items named, the values are the same under other paths. -/
theorem values_map (f g : Text → Text) (b : Content) :
    (b.map f g).values = b.values.map fun value => (value.1.map (Option.map g), g value.2) := by
  induction b <;> simp_all [map, values, List.map_map, Function.comp_def]

end Content

namespace Nest

/-- The content of nested loops is plain. -/
theorem isPlain_content (n : Nest) : n.content.IsPlain := by
  induction n with
  | done => exact List.not_mem_nil
  | text t plain rest ih => exact ih.prepend plain.2
  | value path plain rest ih => exact ⟨List.not_mem_nil, .inl plain, ih⟩
  | item trail field plain rest ih =>
    refine ⟨List.not_mem_nil, .inr ⟨_, field, rfl, plain, ?_, fun he => ?_, fun he => ?_⟩, ih⟩
    · exact trail.not_mem_item (by decide) (by decide)
    · exact trail.not_mem_item (by decide) (by decide) (List.mem_of_head? he)
    · exact trail.not_mem_item (by decide) (by decide) (List.mem_of_head? he)
  | loop l body rest ihb ihr =>
    exact ⟨List.not_mem_nil, ⟨l.trail.isBare_path, l.isName⟩, ihb.map l, ihr⟩

/-! ### References -/

/-- A path with the items of loops named, those of inner loops first. -/
def named (loops : List NestLoop) (path : Text) : Text :=
  loops.foldl (fun path l => l.name path) path

/-- The references of the template are those of the nest, with the items of the loops around them
named. -/
theorem values_content (n : Nest) :
    n.content.values = n.values.map fun value =>
      (value.1.map NestLoop.itemVar, named value.1 value.2) := by
  induction n with
  | done => rfl
  | text t plain rest ih => rw [Nest.content, Content.values_prepend, ih, values]
  | value path plain rest ih => simp [Nest.content, Content.values, values, ih, named]
  | item trail field plain rest ih => simp [Nest.content, Content.values, values, ih, named]
  | loop l body rest ihb ihr =>
    have hname : ∀ l' : NestLoop, l'.itemVar.map l.name = l'.itemVar := by
      intro l'
      cases hv : l'.itemVar with
      | none => rfl
      | some v => rw [Option.map_some, l.isName_name (l'.isName v hv)]
    simp only [Nest.content, Content.values, Content.values_map, values, ihb, ihr, List.map_append,
      List.map_map]
    congr 1
    refine List.map_congr_left fun value _ => ?_
    simp [Function.comp_def, named, hname]

variable {inner outer : List NestLoop} {l : NestLoop} {t : Trail} {field : Text}

/-- No loop names an item in a path without brackets. -/
private theorem named_of_bracket_not_mem {path : Text} (h : '[' ∉ path) (loops : List NestLoop) :
    named loops path = path := by
  induction loops with
  | nil => rfl
  | cons l ls ih =>
    change named ls (l.name path) = path
    rw [l.name_of_bracket_not_mem h, ih]

/-- In the path of an item's field, a loop names the item and keeps the field. -/
private theorem name_itemField (l : NestLoop) (t : Trail) (hfield : IsDotted field) :
    l.name (t.itemField field) = l.name (representative t.path) ++ '.' :: field := by
  have hbracket : ']' ∉ field := hfield.not_mem (by decide) (by decide)
  exact l.name_append (by simp [hbracket]) _

/-- **Naming a field.** The innermost loop over the array of a reference names its item, if no loop
inside it goes over an array on the way. -/
private theorem named_itemField (hfield : IsDotted field)
    (hinner : ∀ l ∈ inner, ¬ l.trail.steps <+: t.steps) (hl : l.trail = t) :
    named (inner ++ l :: outer) (t.itemField field) = l.item ++ '.' :: field := by
  induction inner with
  | nil =>
    have hbracket : '[' ∉ l.item ++ '.' :: field := by
      simp [l.isName_item.not_mem (c := '[') (by decide),
        hfield.not_mem (c := '[') (by decide) (by decide)]
    change named outer (l.name (t.itemField field)) = _
    rw [name_itemField l t hfield, ← hl, NestLoop.name, nameItem_representative,
      named_of_bracket_not_mem hbracket]
  | cons i is ih =>
    have hskip : i.name (t.itemField field) = t.itemField field := by
      rw [name_itemField i t hfield, NestLoop.name,
        Trail.nameItem_of_not_prefix (hinner i (by simp))]
      rfl
    change named (is ++ l :: outer) (i.name (t.itemField field)) = _
    rw [hskip, ih fun l hl => hinner l (by simp [hl])]

/-- A reference of a template keeps what a reference of a nest is about: if that one is to a field of
the item of a loop `l` around it, and no loop between them goes over an array on the way to that of `l`,
then the reference of the template denotes that field of the item of `l` exactly if no loop is between
them, or the item of `l` has a name and no loop between them has that name or that array. -/
def KeepsItem (value : List NestLoop × Text) (value' : List (Option Text) × Text) : Prop :=
  value'.1 = value.1.map NestLoop.itemVar ∧
    ∀ inner l outer field, value = (inner ++ l :: outer, l.trail.itemField field) →
      IsDotted field → (∀ i ∈ inner, i.trail.steps <+: l.trail.steps → i.trail = l.trail) →
      (denoted value'.1 value'.2 = some (inner.length, field) ↔
        inner = [] ∨ ∃ v, l.itemVar = some v ∧ v ≠ "this".toList ∧
          ∀ i ∈ inner, i.trail ≠ l.trail ∧ i.itemVar ≠ some v)

/-- The word that the item of a loop begins with is its name, or `this`. -/
private theorem itemVar_of_item {v : Text} (h : l.item = v) (hv : v ≠ "this".toList) :
    l.itemVar = some v := by
  unfold NestLoop.item itemName at h
  cases hi : l.itemVar with
  | none =>
    rw [hi] at h
    exact absurd h.symm hv
  | some w =>
    rw [hi] at h
    exact congrArg some h

/-- The innermost loop over an array. -/
private theorem exists_innermost (h : ∃ i ∈ inner, i.trail = t) :
    ∃ before f after, inner = before ++ f :: after ∧ f.trail = t ∧ ∀ i ∈ before, i.trail ≠ t := by
  induction inner with
  | nil => simp at h
  | cons i is ih =>
    by_cases hi : i.trail = t
    · exact ⟨[], i, is, rfl, hi, by simp⟩
    · obtain ⟨j, hj, hjt⟩ := h
      have hjs : j ∈ is := by
        rcases List.mem_cons.mp hj with rfl | hj
        · exact absurd hjt hi
        · exact hj
      obtain ⟨before, f, after, rfl, hf, hbefore⟩ := ih ⟨j, hjs, hjt⟩
      refine ⟨i :: before, f, after, rfl, hf, ?_⟩
      simpa [hi] using hbefore

/-- Naming the items of all loops keeps what a path refers to. -/
private theorem keepsItem_named (loops : List NestLoop) (path : Text) :
    KeepsItem (loops, path) (loops.map NestLoop.itemVar, named loops path) := by
  refine ⟨rfl, ?_⟩
  rintro inner l outer field hvalue hfield hinner
  obtain ⟨rfl, rfl⟩ := Prod.mk.inj hvalue
  have hdenoted : ∀ f : NestLoop, denoted ((inner ++ l :: outer).map NestLoop.itemVar)
      (f.item ++ '.' :: field) = some (inner.length, field) ↔
        f.item = "this".toList ∧ inner = [] ∨
          f.item ≠ "this".toList ∧ l.itemVar = some f.item ∧
            some f.item ∉ inner.map NestLoop.itemVar := by
    intro f
    have hitem : itemOf (inner.map NestLoop.itemVar ++ l.itemVar :: outer.map NestLoop.itemVar)
        f.item = some (inner.map NestLoop.itemVar).length ↔ _ := itemOf_append
    rw [denoted_append (f.isName_item.not_mem (by decide)), Option.map_eq_some_iff]
    simpa using hitem
  by_cases hagain : ∃ i ∈ inner, i.trail = l.trail
  · -- the innermost loop over the array names its own item, which `l` is not
    obtain ⟨before, f, after, rfl, hf, hbefore⟩ := exists_innermost hagain
    have hskip : ∀ i ∈ before, ¬ i.trail.steps <+: l.trail.steps := fun i hi hp =>
      hbefore i hi (hinner i (by simp [hi]) hp)
    have hnamed : named ((before ++ f :: after) ++ l :: outer) (l.trail.itemField field) =
        f.item ++ '.' :: field := by
      rw [List.append_assoc, List.cons_append]
      exact named_itemField hfield hskip hf
    rw [hnamed, hdenoted f]
    constructor
    · rintro (⟨-, hnil⟩ | ⟨hthis, -, hmem⟩)
      · simp at hnil
      · exact absurd (by simp [itemVar_of_item rfl hthis]) hmem
    · rintro (hnil | ⟨v, -, -, hall⟩)
      · simp at hnil
      · exact absurd hf (hall f (by simp)).1
  · have hdistinct : ∀ i ∈ inner, i.trail ≠ l.trail := fun i hi he => hagain ⟨i, hi, he⟩
    have hnamed : named (inner ++ l :: outer) (l.trail.itemField field) = l.item ++ '.' :: field :=
      named_itemField hfield (fun i hi hp => hdistinct i hi (hinner i hi hp)) rfl
    rw [hnamed, hdenoted l]
    constructor
    · rintro (⟨-, hnil⟩ | ⟨hthis, hv, hmem⟩)
      · exact .inl hnil
      · exact .inr ⟨l.item, hv, hthis, fun i hi => ⟨hdistinct i hi, fun he =>
          hmem (List.mem_map.mpr ⟨i, hi, he⟩)⟩⟩
    · rintro (rfl | ⟨v, hv, hthis, hall⟩)
      · by_cases hthis : l.item = "this".toList
        · exact .inl ⟨hthis, rfl⟩
        · exact .inr ⟨hthis, itemVar_of_item rfl hthis, List.not_mem_nil⟩
      · have hitem : l.item = v := by rw [NestLoop.item, hv]; rfl
        rw [hitem]
        refine .inr ⟨hthis, hv, fun hmem => ?_⟩
        obtain ⟨i, hi, he⟩ := List.mem_map.mp hmem
        exact (hall i hi).2 he

/-- **Captured references.** The markup of a nest is lowered to a template that can be read, and the
references of the template are those of the nest one by one. One that is to a field of the item of a
loop around it denotes that field of that item exactly if the reference is directly in the loop, or the
item of the loop has a name that no loop in between uses again. -/
theorem references_lowered (n : Nest) (journal : Journal) :
    ∃ template journal', lowerTags n.written journal = (.ok template, journal') ∧
      ∃ b, Content.read template = some b ∧ List.Forall₂ KeepsItem n.values b.values := by
  obtain ⟨hsettles, -⟩ := n.reaches_content
  have hconditionals : SettlesTo conditionalKind n.written n.written :=
    settlesTo_of_clear n.clear_written
  obtain ⟨journal', hlowered⟩ := lowerTags_of_settlesTo hconditionals hsettles journal
  refine ⟨_, journal', hlowered, n.content, Content.read_written n.isPlain_content.readable, ?_⟩
  rw [values_content, List.forall₂_map_right_iff, List.forall₂_same]
  exact fun value _ => keepsItem_named value.1 value.2

/-- A reference to a field of a group in the loop over the members of the group. -/
def grouped : Nest :=
  .loop ⟨⟨"groups".toList, [], by decide⟩, none, by simp⟩
    (.loop ⟨⟨"groups".toList, ["members".toList], by decide⟩, none, by simp⟩
      (.item ⟨"groups".toList, [], by decide⟩ "title".toList (by decide) .done) .done) .done

/-- **Capture.** The reference to the title of the group becomes one to the title of the member. -/
theorem captured_grouped :
    (lowerTags grouped.written []).1.toOption =
        some ("\x7b\x7b#each groups\x7d\x7d\x7b\x7b#each this.members\x7d\x7d" ++
          "\x7b\x7bthis.title\x7d\x7d\x7b\x7b/each\x7d\x7d\x7b\x7b/each\x7d\x7d").toList ∧
      denoted [none, none] "this.title".toList = some (0, "title".toList) := by
  decide +kernel

end Nest

end Stencil.Template
