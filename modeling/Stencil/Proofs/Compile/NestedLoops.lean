import Stencil.Proofs.Compile.Levels
import Stencil.Proofs.Template.Cleanup
import Stencil.Proofs.Template.Content

/-!
# The markup of nested loops

What the component of nested loops comes to is put together of pseudo-tags whose arrays are spelled from
the root. Around what is inside the loops, the markup is without any marker and without anything to clean
up (`exists_around`).

Around the reference to the field, it is compiled to `nestedTemplate`: **every block is over an array in
the item of the block around it** (`template_draft`). Innermost loop first, the item of a loop is named
where the path of the array next inside it, or that of the field, goes on in the item. A path that is
named has no bracket in it any more, so that the loops further out leave it alone (`map_insideContent`).
-/

namespace Stencil.Render

open Text Markup Template

/-- Names that are joined are written in an attribute as they are. -/
theorem IsJoined.escape_eq {t : Text} (h : IsJoined t) : escape t = t := by
  have hall : ∀ x ∈ ['&', '<', '>', '"', '\''], isIdentifierChar x = false ∧ x ∉ ['.', '[', ']'] := by
    decide
  exact escape_of_not_mem fun x hx => h.not_mem (hall x hx).1 (hall x hx).2

/-- Nothing in names that are joined is cleaned up. -/
theorem IsJoined.bland {t : Text} (h : IsJoined t) : Bland t := by
  refine bland_of_forall fun c hc => ⟨?_, ?_⟩
  · rintro rfl
    exact h.not_mem (by decide) (by decide) hc
  · rcases h c hc with hchar | hjoin
    · exact isBlank_of_isIdentifierChar hchar
    · have hall : ∀ x ∈ ['.', '[', ']'], isBlank x = false := by decide
      exact hall c hjoin

end Stencil.Render

namespace Stencil.Compile

open Text Markup Template Component Render Marker

/-! ### The template -/

namespace Level

/-- What the item is called in the template. -/
def item (l : Level) : Text := (l.itemName?.getD "this").toList

/-- A field of the item. -/
def itemField (l : Level) (field : LevelName) : Text := l.item ++ '.' :: field.name.toList

/-- The block of the loop around what is inside it. -/
def block (l : Level) (array inside : Text) : Text :=
  "\x7b\x7b#each ".toList ++ array ++
    (match l.itemName? with
      | some v => " as |".toList ++ v.toList ++ ['|']
      | none => []) ++
    "\x7d\x7d".toList ++ inside ++ "\x7b\x7b/each\x7d\x7d".toList

end Level

/-- The template of what is inside a loop. -/
def insideTemplate (field : LevelName) (outer : Level) : List Level → Text
  | [] => "\x7b\x7b".toList ++ outer.itemField field ++ "\x7d\x7d".toList
  | l :: ls => l.block (outer.itemField l.key) (insideTemplate field l ls)

/-- The template of nested loops. -/
def nestedTemplate (field : LevelName) (first : Level) (rest : List Level) : Text :=
  first.block first.key.name.toList (insideTemplate field first rest)

/-- The signs in a template. -/
def signs : List Char := ['\x7b', '\x7d', '#', '/', ' ', '|', '.']

theorem not_mem_of_signs {c : Char} (hc : isIdentifierChar c = false) (hsign : c ∉ signs) {t : Text}
    (h : ∀ x ∈ t, isIdentifierChar x = true ∨ x ∈ signs) : c ∉ t := fun hmem =>
  (h c hmem).elim (by simp [hc]) hsign

/-- A block has no characters but those of names, signs, and the characters of its parts. -/
theorem Level.not_mem_block (l : Level) {c : Char} (hc : isIdentifierChar c = false) (hsign : c ∉ signs)
    {array inside : Text} (harray : c ∉ array) (hinside : c ∉ inside) : c ∉ l.block array inside := by
  have hopen : c ∉ "\x7b\x7b#each ".toList := not_mem_of_signs hc hsign (by decide)
  have hcalled : c ∉ " as |".toList := not_mem_of_signs hc hsign (by decide)
  have hbar : c ∉ ['|'] := not_mem_of_signs hc hsign (by decide)
  have hend : c ∉ "\x7d\x7d".toList := not_mem_of_signs hc hsign (by decide)
  have hclose : c ∉ "\x7b\x7b/each\x7d\x7d".toList := not_mem_of_signs hc hsign (by decide)
  unfold Level.block
  simp only [List.mem_append, not_or]
  refine ⟨⟨⟨⟨⟨hopen, harray⟩, ?_⟩, hend⟩, hinside⟩, hclose⟩
  cases hv : l.itemName? with
  | none => exact List.not_mem_nil
  | some v =>
    simp only [List.mem_append, not_or]
    exact ⟨⟨hcalled, (l.isIdentifier_of_mem hv).not_mem hc⟩, hbar⟩

/-! ### Paths -/

/-- A path spelled from the root, in which no marker begins. -/
structure IsSpelled (t : Text) : Prop where
  ne_nil : t ≠ []
  isJoined : IsJoined t
  unmarked : ¬ markerLead <:+: t

theorem LevelName.isSpelled (n : LevelName) : IsSpelled n.name.toList :=
  ⟨n.isIdentifier.ne_nil, fun c hc => .inl (n.isIdentifier.isIdentifierChar_of_mem c hc), n.unmarked⟩

/-- The beginning of markers does not come around a character that it does not have. -/
theorem not_infix_append_cons {u v : Text} {c : Char} (hu : ¬ markerLead <:+: u)
    (hv : ¬ markerLead <:+: v) (hc : c ∉ markerLead) : ¬ markerLead <:+: u ++ c :: v := fun h =>
  (infix_of_infix_append_cons h hc).elim hu hv

/-- The loop around and its level. -/
inductive Around : Option Enclosing → Option Level → Prop
  | root : Around none none
  | within (e : Enclosing) (o : Level) (name : e.itemVar = o.itemName?)
      (isSpelled : IsSpelled e.path) : Around (some e) (some o)

/-- The path that the array of the next level is joined to. -/
def base : Option Enclosing → Text
  | none => []
  | some e => e.path ++ ['.', '[', '0', ']']

/-- A path behind another one. -/
def joined (base path : Text) : Text := if base = [] then path else base ++ '.' :: path

/-- The path of the next array is joined to the item of the loop around it. -/
theorem absolute_array {loop : Option Enclosing} {outer : Option Level} (h : Around loop outer)
    (l : Level) :
    absolute loop (l.array outer).name.toList = joined (base loop) l.key.name.toList := by
  cases h with
  | root => rfl
  | within e o name isSpelled =>
    have hword : IsItemWord e.itemVar o.word := name ▸ o.isItemWord_word
    change continuedPath (l.arrayIn (some o)).toList e.path e.itemVar = _
    rw [Level.toList_arrayIn, continuedPath_field hword o.isIdentifier_word (.name l.key.isIdentifier)]
    simp [joined, base]

theorem IsSpelled.joined {loop : Option Enclosing} {outer : Option Level} (h : Around loop outer)
    (n : LevelName) : IsSpelled (joined (base loop) n.name.toList) := by
  cases h with
  | root => exact n.isSpelled
  | within e o name isSpelled =>
    have heq : Compile.joined (base (some e)) n.name.toList =
        e.path ++ '.' :: (['[', '0', ']'] ++ '.' :: n.name.toList) := by
      simp [Compile.joined, base]
    rw [heq]
    refine ⟨by simp, fun c hc => ?_, ?_⟩
    · simp only [List.mem_append, List.mem_cons, List.not_mem_nil, or_false] at hc
      rcases hc with hc | rfl | (rfl | rfl | rfl) | rfl | hc
      · exact isSpelled.isJoined c hc
      · exact .inr (by simp)
      · exact .inr (by simp)
      · exact .inl (by decide)
      · exact .inr (by simp)
      · exact .inr (by simp)
      · exact n.isSpelled.isJoined c hc
    · exact not_infix_append_cons isSpelled.unmarked
        (not_infix_append_cons (by decide) n.unmarked (by decide)) (by decide)

/-- The loop of the next level is around what is inside it. -/
theorem Around.next {loop : Option Enclosing} {outer : Option Level} (h : Around loop outer)
    (l : Level) :
    Around (some (Tree.enclosing loop (l.array outer) l.plainVar)) (some l) := by
  refine .within _ _ l.map_plainVar ?_
  change IsSpelled (absolute loop (l.array outer).name.toList)
  rw [absolute_array h]
  exact .joined h l.key

/-- The path of the field inside loops. -/
def fieldPath (field : String) (base : Text) : List Level → Text
  | [] => joined base field.toList
  | l :: ls => fieldPath field (joined base l.key.name.toList ++ ['.', '[', '0', ']']) ls

/-- Marking the sample binds the token of the field to its path. -/
theorem leafPath_eq (field : String) (base : Text) (levels : List Level) :
    leafPath field (String.ofList base) (levels.map fun l => l.key.name) =
      String.ofList (fieldPath field base levels) := by
  have hjoin : ∀ (b : Text) (name : String),
      Path.join (String.ofList b) (.str name) = String.ofList (joined b name.toList) := by
    intro b name
    have hdot : "." = String.ofList ['.'] := by decide
    have hshown : (Value.str name).displayString = name := by simp [Value.displayString]
    rw [Path.join, hshown]
    by_cases hb : b = []
    · subst hb
      simp [joined]
    · rw [if_neg (by simpa using hb), joined, if_neg hb, hdot]
      apply String.toList_injective
      simp
  have hitem : ∀ {b : Text}, b ≠ [] →
      Path.item (String.ofList b) = String.ofList (b ++ ['.', '[', '0', ']']) := by
    intro b hb
    have hlit : ".[0]" = String.ofList ['.', '[', '0', ']'] := by decide
    rw [Path.item, if_neg (by simpa using hb), hlit]
    apply String.toList_injective
    simp
  -- each level puts its array and `.[0]` behind a path, which is not empty then
  induction levels generalizing base with
  | nil => exact hjoin base field
  | cons l ls ih =>
    have hne : joined base l.key.name.toList ≠ [] := by
      unfold joined
      split
      · exact l.key.isIdentifier.ne_nil
      · simp
    rw [List.map_cons, leafPath, hjoin, hitem hne, ih, fieldPath]

/-! ### Pseudo-tags -/

/-- The opening tag of a loop up to its last character. -/
def opening (array : Text) (l : Level) : Text :=
  ['<', 'h', 'b', '-', 'e', 'a', 'c', 'h'] ++ ' ' :: (['a', 'r', 'r', 'a', 'y', '='] ++ '"' ::
    (array ++ '"' ::
      match l.itemVar with
      | some v => [] ++ ' ' :: (['i', 't', 'e', 'm', 'V', 'a', 'r', '='] ++ '"' :: (v.name.toList ++ '"' :: []))
      | none => []))

theorem itemVar_head (loop : Option Enclosing) (outer : Option Level) (l : Level) :
    (Tree.head loop (l.array outer) l.plainVar).itemVar =
      l.itemVar.map fun v => v.name.toList := by
  change ((l.plainVar.map fun v => v.name.toList).filter fun v => !v.isEmpty) = _
  unfold Level.plainVar
  cases l.itemVar with
  | none => rfl
  | some v => simp [Option.filter, v.isIdentifier.ne_nil]

theorem tag_head {loop : Option Enclosing} {outer : Option Level} (h : Around loop outer)
    (l : Level) : (Tree.head loop (l.array outer) l.plainVar).tag =
      opening (joined (base loop) l.key.name.toList) l ++ ['>'] := by
  have harray : (Tree.head loop (l.array outer) l.plainVar).array =
      joined (base loop) l.key.name.toList := absolute_array h l
  have hname : "array".toList = ['a', 'r', 'r', 'a', 'y'] := by decide
  have hvar : "itemVar".toList = ['i', 't', 'e', 'm', 'V', 'a', 'r'] := by decide
  rw [LoopHead.tag, LoopHead.attributes, harray, itemVar_head, eachOpening_eq, hname, hvar,
    opening]
  cases l.itemVar with
  | none => simp [writtenAttribute, (IsSpelled.joined h l.key).isJoined.escape_eq]
  | some v =>
    simp [writtenAttribute, (IsSpelled.joined h l.key).isJoined.escape_eq,
      v.isSpelled.isJoined.escape_eq]

/-- No marker begins in an opening tag. -/
theorem unmarked_opening {array : Text} (h : IsSpelled array) (l : Level) :
    ¬ markerLead <:+: opening array l := by
  have hrest : ¬ markerLead <:+:
      (match l.itemVar with
        | some v => [] ++ ' ' :: (['i', 't', 'e', 'm', 'V', 'a', 'r', '='] ++ '"' ::
            (v.name.toList ++ '"' :: []))
        | none => []) := by
    cases l.itemVar with
    | none => decide
    | some v =>
      exact not_infix_append_cons (by decide) (not_infix_append_cons (by decide)
        (not_infix_append_cons v.unmarked (by decide) (by decide)) (by decide)) (by decide)
  exact not_infix_append_cons (by decide) (not_infix_append_cons (by decide)
    (not_infix_append_cons h.unmarked hrest (by decide)) (by decide)) (by decide)

/-- Nothing in an opening tag is cleaned up. -/
theorem bland_opening {array : Text} (h : IsSpelled array) (l : Level) :
    Bland (opening array l) := by
  have hname : Bland ['<', 'h', 'b', '-', 'e', 'a', 'c', 'h'] :=
    ⟨⟨fun _ => ⟨'h', rfl, by decide⟩, fun hb => absurd hb (by decide)⟩, bland_of_forall (by decide)⟩
  have space : ∀ {u w : Text}, Bland u → Bland w → (∃ d ∈ w.head?, d = 'a' ∨ d = 'i') →
      Bland (u ++ ' ' :: w) := fun hu hw hhead =>
    hu.append ⟨⟨fun he => absurd he (by decide), fun _ => hhead⟩, hw⟩
  have quote : ∀ {u v : Text}, Bland u → Bland v → Bland (u ++ '"' :: v) := fun hu hv =>
    hu.append ⟨⟨fun he => absurd he (by decide), fun hb => absurd hb (by decide)⟩, hv⟩
  refine space hname (quote (bland_of_forall (by decide)) (quote h.isJoined.bland ?_)) ⟨'a', rfl, .inl rfl⟩
  cases l.itemVar with
  | none => trivial
  | some v =>
    exact space (u := []) trivial
      (quote (bland_of_forall (by decide)) (quote v.isSpelled.isJoined.bland (v := []) trivial))
      ⟨'i', rfl, .inr rfl⟩

/-! ### The markup -/

/-- **The markup.** The markup of the loops is around what is inside them; no marker begins in it, and
nothing in it is cleaned up. -/
theorem exists_around {loop : Option Enclosing} {outer : Option Level} (h : Around loop outer)
    (first : Level) (rest : List Level) :
    ∃ u v, (¬ markerLead <:+: u ∧ ¬ markerLead <:+: v) ∧
      (Bland (u ++ ['>']) ∧ Bland ('<' :: v)) ∧
      ∀ inside : Outline, (draft inside loop outer (first :: rest)).outline.written =
        u ++ '>' :: (inside.written ++ '<' :: v) := by
  -- each level adds its opening tag in front of what is around the innermost body, and a closing tag behind
  induction rest generalizing loop outer first with
  | nil =>
    have hspelled := IsSpelled.joined h first.key
    refine ⟨opening (joined (base loop) first.key.name.toList) first, eachClosing.tail,
      ⟨unmarked_opening hspelled first, ?_⟩,
      ⟨(bland_opening hspelled first).append (bland_of_forall (by decide)), ?_⟩, fun inside => ?_⟩
    · rw [eachClosing_eq]
      decide
    · rw [eachClosing_eq]
      exact ⟨⟨fun _ => ⟨'/', rfl, by decide⟩, fun hb => absurd hb (by decide)⟩,
        bland_of_forall (by decide)⟩
    · simp only [draft, Outline.written, tag_head h]
      simp [eachClosing_eq]
  | cons l ls ih =>
    have hspelled := IsSpelled.joined h first.key
    obtain ⟨u, v, ⟨hu, hv⟩, ⟨hblandu, hblandv⟩, hwritten⟩ := ih (h.next first) l
    refine ⟨opening (joined (base loop) first.key.name.toList) first ++ '>' :: u, v ++ eachClosing,
      ⟨not_infix_append_cons (unmarked_opening hspelled first) hu (by decide), ?_⟩, ⟨?_, ?_⟩,
      fun inside => ?_⟩
    · rw [eachClosing_eq]
      exact not_infix_append_cons hv (by decide) (by decide)
    · have hopening := (bland_opening hspelled first).append
        (show Bland ['>'] from bland_of_forall (by decide))
      have := hopening.append hblandu
      simpa using this
    · have hclosing : Bland eachClosing := by
        rw [eachClosing_eq]
        exact ⟨⟨fun _ => ⟨'/', rfl, by decide⟩, fun hb => absurd hb (by decide)⟩,
          bland_of_forall (by decide)⟩
      exact hblandv.append hclosing
    · have hinner := hwritten inside
      simp only [draft, Outline.written, tag_head h] at hinner ⊢
      rw [hinner]
      simp

/-! ### The content -/

theorem Level.not_mem_item (l : Level) {c : Char} (hc : isIdentifierChar c = false) :
    c ∉ l.item := by
  unfold Level.item
  cases hv : l.itemName? with
  | none => exact isIdentifier_this.not_mem hc
  | some v => exact (l.isIdentifier_of_mem hv).not_mem hc

theorem Level.not_mem_itemField (l : Level) (field : LevelName) {c : Char}
    (hc : isIdentifierChar c = false) (hdot : c ≠ '.') : c ∉ l.itemField field := by
  simp [Level.itemField, l.not_mem_item hc, hdot, field.isIdentifier.not_mem hc]

/-- The template has no characters but those of names and signs. -/
theorem not_mem_nestedTemplate {c : Char} (hc : isIdentifierChar c = false) (hsign : c ∉ signs)
    (field : LevelName) (first : Level) (rest : List Level) : c ∉ nestedTemplate field first rest := by
  refine first.not_mem_block hc hsign (first.key.isIdentifier.not_mem hc) ?_
  have hdot : c ≠ '.' := fun he => hsign (he ▸ by decide)
  induction rest generalizing first with
  | nil =>
    simp only [insideTemplate, List.mem_append, not_or]
    exact ⟨⟨not_mem_of_signs hc hsign (by decide), first.not_mem_itemField field hc hdot⟩,
      not_mem_of_signs hc hsign (by decide)⟩
  | cons l ls ih => exact l.not_mem_block hc hsign (first.not_mem_itemField l.key hc hdot) (ih l)

/-- The template of what is inside a loop, as a tree. -/
def insideContent (field : LevelName) (outer : Level) : List Level → Content
  | [] => .reference [] (outer.itemField field) (.text [])
  | l :: ls =>
    .loop [] (outer.itemField l.key) (l.itemName?.map String.toList) (insideContent field l ls)
      (.text [])

/-- A block as it is written. -/
theorem Level.written_block (l : Level) (array : Text) (body : Content) :
    (Content.loop [] array (l.itemName?.map String.toList) body (.text [])).written =
      l.block array body.written := by
  have hopen : "\x7b\x7b#each ".toList = '\x7b' :: '\x7b' :: "#each ".toList := by decide
  have hclose : "\x7b\x7b/each\x7d\x7d".toList = braced "/each".toList := by decide
  have hend : "\x7d\x7d".toList = ['\x7d', '\x7d'] := by decide
  unfold Level.block
  rw [Content.written, Content.written, hopen, hclose, hend]
  unfold loopOpening
  generalize "#each ".toList = each
  generalize " as |".toList = called
  generalize braced "/each".toList = closing
  cases l.itemName? with
  | none => simp [braced]
  | some v => simp [braced]

theorem written_insideContent (field : LevelName) (outer : Level) (levels : List Level) :
    (insideContent field outer levels).written = insideTemplate field outer levels := by
  induction levels generalizing outer with
  | nil =>
    have hopen : "\x7b\x7b".toList = ['\x7b', '\x7b'] := by decide
    have hclose : "\x7d\x7d".toList = ['\x7d', '\x7d'] := by decide
    simp [insideContent, Content.written, insideTemplate, braced, hopen, hclose]
  | cons l ls ih => rw [insideContent, Level.written_block, ih, insideTemplate]

/-- The item of a loop further out is not named in a path that begins with the item of its own loop. -/
theorem map_insideContent (array name : Text) (field : LevelName) (outer : Level)
    (levels : List Level) :
    (insideContent field outer levels).map id (nameItem array name) =
      insideContent field outer levels := by
  have stays : ∀ {t : Text}, '[' ∉ t → nameItem array name t = t := fun h =>
    (itemless_of_bracket_not_mem h).nameItem name
  induction levels generalizing outer with
  | nil =>
    simp [insideContent, Content.map, stays (outer.not_mem_itemField field (by decide) (by decide))]
  | cons l ls ih =>
    have hvar : (l.itemName?.map String.toList).map (nameItem array name) =
        l.itemName?.map String.toList := by
      cases hv : l.itemName? with
      | none => rfl
      | some v => simp [stays ((l.isIdentifier_of_mem hv).not_mem (by decide))]
    rw [insideContent, Content.map, ih, hvar,
      stays (outer.not_mem_itemField l.key (by decide) (by decide))]
    rfl

/-- Behind the item that stands for all items of the loop around it, a path is named. -/
theorem nameItem_joined (e : Enclosing) (name : Text) (n : LevelName) :
    nameItem e.path name (joined (base (some e)) n.name.toList) = name ++ '.' :: n.name.toList := by
  have hjoined : joined (base (some e)) n.name.toList =
      Template.representative e.path ++ '.' :: n.name.toList := by
    simp [joined, base, Template.representative]
  rw [hjoined, nameItem_append (by simp [n.isIdentifier.not_mem (c := ']') (by decide)]),
    nameItem_representative]

theorem itemName_head (loop : Option Enclosing) (outer : Option Level) (l : Level) :
    itemName (Tree.head loop (l.array outer) l.plainVar).itemVar = l.item := by
  rw [itemVar_head, Level.item, Level.itemName?]
  cases l.itemVar <;> rfl

/-- **The content.** Around the reference to the field, what is inside a loop is compiled, and named, to the
template of what is inside it. -/
theorem map_content_draft {e : Enclosing} {o : Level} (h : Around (some e) (some o))
    {field : LevelName} {levels : List Level} {path : Text} (plain : '<' ∉ path)
    (hpath : path = fieldPath field.name (base (some e)) levels) :
    (draft (.reference path plain .done) (some e) (some o) levels).outline.content.map id
      (nameItem e.path o.item) = insideContent field o levels := by
  induction levels generalizing e o with
  | nil =>
    subst hpath
    simp only [draft, Outline.content, Content.map, insideContent, fieldPath, nameItem_joined]
    rfl
  | cons l ls ih =>
    -- the path of the next loop is the base of what is inside it
    have harray : (Tree.enclosing (some e) (l.array (some o)) l.plainVar).path =
        joined (base (some e)) l.key.name.toList := absolute_array h l
    have hinner := ih (h.next l) (by rw [hpath, fieldPath, ← harray]; rfl)
    have hname : (Tree.head (some e) (l.array (some o)) l.plainVar).itemVar.map
        (nameItem e.path o.item) = l.itemName?.map String.toList := by
      rw [itemVar_head, Level.itemName?]
      cases l.itemVar with
      | none => rfl
      | some v =>
        have hv : Itemless v.name.toList :=
          itemless_of_bracket_not_mem (v.isIdentifier.not_mem (by decide))
        simp [hv.nameItem]
    rw [draft, Outline.content, Outline.content, Content.map, itemName_head, hname, insideContent]
    change Content.loop _ (nameItem e.path o.item
      (Tree.enclosing (some e) (l.array (some o)) l.plainVar).path) _ (Content.map id _
        (Content.map id (nameItem
          (Tree.enclosing (some e) (l.array (some o)) l.plainVar).path l.item) _)) _ = _
    rw [hinner, map_insideContent, harray, nameItem_joined]
    rfl


/-! ### The template of the outline -/

theorem everyLoop_draft {ok : PlainHead → Prop} (hok : ∀ head : PlainHead, IsSpelled head.array → ok head)
    {inside : Outline} (hinside : inside.EveryLoop ok) {loop : Option Enclosing}
    {outer : Option Level} (h : Around loop outer) (levels : List Level) :
    (draft inside loop outer levels).outline.EveryLoop ok := by
  induction levels generalizing loop outer with
  | nil => exact hinside
  | cons l ls ih =>
    refine ⟨hok _ ?_, ih (h.next l), trivial⟩
    change IsSpelled (absolute loop (l.array outer).name.toList)
    rw [absolute_array h]
    exact .joined h l.key

theorem everyRun_draft {inside : Outline} (hinside : inside.content.EveryRun Itemless)
    (loop : Option Enclosing) (outer : Option Level) (levels : List Level) :
    (draft inside loop outer levels).outline.content.EveryRun Itemless := by
  have hnil : Itemless [] := itemless_of_bracket_not_mem List.not_mem_nil
  induction levels generalizing loop outer with
  | nil => exact hinside
  | cons l ls ih =>
    refine ⟨hnil, ?_, hnil⟩
    rw [Content.everyRun_map]
    exact ih _ _

/-- No path of an array has a space, so that the outline can be lowered loop by loop. -/
theorem steady_draft {path : Text} (plain : '<' ∉ path) (levels : List Level) :
    (draft (.reference path plain .done) none none levels).outline.Steady := by
  have hinside : (Outline.reference path plain .done).EveryLoop PlainHead.IsUnspaced := trivial
  refine .inl (everyLoop_draft (fun head h => ?_) hinside .root levels)
  exact ⟨h.isJoined.not_mem (by decide) (by decide), h.isJoined.not_mem (by decide) (by decide)⟩

/-- **The template.** Around the reference to the field, the outline is compiled to the template. -/
theorem template_draft {field : LevelName} {first : Level} {rest : List Level} {path : Text}
    (plain : '<' ∉ path) (hpath : path = fieldPath field.name [] (first :: rest)) :
    (draft (.reference path plain .done) none none (first :: rest)).outline.template =
      nestedTemplate field first rest := by
  have hbare : ∀ head : PlainHead, IsSpelled head.array → IsBare head.array := by
    intro head h c hc
    have hall : ∀ c ∈ tagChars, isIdentifierChar c = false ∧ c ∉ ['.', '[', ']'] := by decide
    exact h.isJoined.not_mem (hall c hc).1 (hall c hc).2
  have hnil : Itemless [] := itemless_of_bracket_not_mem List.not_mem_nil
  have hcontent := @map_content_draft _ _ (Around.root.next first) field rest path plain hpath
  have hloop : (Outline.reference path plain .done).EveryLoop fun head => IsBare head.array := trivial
  have hrun : (Outline.reference path plain .done).content.EveryRun Itemless := ⟨hnil, hnil⟩
  have hloops := everyLoop_draft hbare hloop .root (first :: rest)
  have hruns := everyRun_draft hrun none none (first :: rest)
  rw [← Outline.written_content hloops hruns]
  rw [draft, Outline.content, Outline.content, itemName_head, itemVar_head, nestedTemplate,
    ← written_insideContent, ← first.written_block, ← hcontent, Level.itemName?, Option.map_map]
  rfl

end Stencil.Compile
