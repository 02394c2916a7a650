import Stencil.Proofs.Template.Ending

/-!
# Text around markup

Lowering works on a text from one angle bracket to another: every occurrence begins with `<` and ends
with `>`. So text in front of markup that has no `<`, and text behind it that has no `>`, should have no
part in it. In front this is plain. Behind it is not: an attribute that is not closed in the markup may
be closed by a quote of the text behind it, and a tag may begin in the markup and go on behind it. Where
that happens, the tag has no end, and then nothing is recognised, as it is without the text.

`EndsInTag` says of a reader that it reads the same with such a text behind, and `TakesOff` of one that it
takes a beginning off for what it is; the readers of tags are of the first kind when they are put
together of the second kind and the search for a closing tag (`EndsInTag.behind`). The main statement is
`lowerTags_surrounded`: **the text around markup stays as it is, and what happens to the markup and is
written down is the same without it.**
-/

namespace Stencil.Template

open Text

variable {α β : Type} {t u v : Text}

/-! ### Readers -/

/-- A reader that **takes a beginning off** a text for what it is, whatever comes behind. -/
def TakesOff (read : Text.Matcher α) : Prop :=
  ∃ p : Text → α → Prop, ∀ t a rest, read t = some (a, rest) ↔ ∃ x, t = x ++ rest ∧ p x a

/-- A reader that does not see **what is behind the last `>`** of a text. -/
structure EndsInTag (read : Text.Matcher α) : Prop where
  nil : read [] = none
  append : ∀ t v, '>' ∉ v → read (t ++ v) = (read t).map fun found => (found.1, found.2 ++ v)

/-- Where no tag ends, nothing is read. -/
theorem EndsInTag.eq_none {read : Text.Matcher α} (h : EndsInTag read) (ht : '>' ∉ t) :
    read t = none := by
  have hnone := h.append [] t ht
  rwa [List.nil_append, h.nil, Option.map_none] at hnone

/-- Trying one reader after the other ends in a tag if both do. -/
theorem EndsInTag.or {read read' : Text.Matcher α} (h : EndsInTag read) (h' : EndsInTag read') :
    EndsInTag fun t => (read t).or (read' t) where
  nil := by rw [h.nil, h'.nil, Option.or_none]
  append t v hv := by
    rw [h.append t v hv, h'.append t v hv]
    cases read t <;> rfl

/-- What is made of the reading does not matter. -/
theorem EndsInTag.map {read : Text.Matcher α} (h : EndsInTag read) (f : α → β) :
    EndsInTag fun t => (read t).bind fun found => some (f found.1, found.2) where
  nil := by rw [h.nil, Option.bind_none]
  append t v hv := by
    rw [h.append t v hv]
    cases read t <;> rfl

/-- **One reader behind another.** The first one may go on into the text behind, but then the second one
finds no `>`. -/
theorem EndsInTag.behind {read : Text.Matcher α} {next : α → Text.Matcher β} (hread : TakesOff read)
    (hnext : ∀ a, EndsInTag (next a)) :
    EndsInTag fun t => (read t).bind fun found => next found.1 found.2 := by
  obtain ⟨p, hp⟩ := hread
  refine ⟨?_, fun t v hv => ?_⟩
  · cases hnil : read [] with
    | none => rfl
    | some found =>
      obtain ⟨x, hx, -⟩ := (hp _ _ _).mp hnil
      obtain ⟨-, hrest⟩ := List.append_eq_nil_iff.mp hx.symm
      rw [Option.bind_some, hrest, (hnext found.1).nil]
  · cases hfound : read t with
    | some found =>
      obtain ⟨x, rfl, hx⟩ := (hp _ _ _).mp hfound
      have hmore : read (x ++ found.2 ++ v) = some (found.1, found.2 ++ v) :=
        (hp _ _ _).mpr ⟨x, List.append_assoc x found.2 v, hx⟩
      rw [hmore, Option.bind_some, Option.bind_some, (hnext found.1).append found.2 v hv]
    | none =>
      rw [Option.bind_none, Option.map_none]
      cases hmore : read (t ++ v) with
      | none => rfl
      | some found =>
        obtain ⟨x, hsplit, hx⟩ := (hp _ _ _).mp hmore
        rcases List.append_eq_append_iff.mp hsplit with ⟨y, -, rfl⟩ | ⟨y, rfl, -⟩
        · exact (hnext found.1).eq_none fun hmem => hv (List.mem_append_right y hmem)
        · -- what ends in `t` is read there
          rw [(hp _ _ _).mpr ⟨x, rfl, hx⟩] at hfound
          cases hfound

/-! ### The parts of a tag -/

/-- A literal word is taken off the front. -/
theorem takesOff_literal (word : Text) : TakesOff (literal word) := by
  refine ⟨fun x _ => x = word, fun t a rest => ?_⟩
  rw [literal, Option.map_eq_some_iff]
  constructor
  · rintro ⟨w, hword, heq⟩
    obtain ⟨-, rfl⟩ := Prod.mk.inj heq
    exact ⟨word, eq_append_of_after? hword, rfl⟩
  · rintro ⟨x, rfl, rfl⟩
    exact ⟨rest, after?_append x rest, rfl⟩

/-- So is the rest of a tag. -/
theorem takesOff_tagEnd? : TakesOff fun t => (tagEnd? t).map fun rest => ((), rest) := by
  refine ⟨fun x _ => ∃ inside, x = inside ++ ['>'] ∧ '>' ∉ inside, fun t a rest => ?_⟩
  rw [Option.map_eq_some_iff]
  constructor
  · rintro ⟨w, hend, heq⟩
    obtain ⟨-, rfl⟩ := Prod.mk.inj heq
    clear heq
    induction t with
    | nil => simp [tagEnd?] at hend
    | cons c cs ih =>
      rw [tagEnd?] at hend
      split_ifs at hend with hc
      · obtain rfl : cs = w := Option.some.inj hend
        exact ⟨['>'], by rw [hc]; rfl, [], rfl, List.not_mem_nil⟩
      · obtain ⟨x, rfl, inside, rfl, hinside⟩ := ih hend
        refine ⟨c :: (inside ++ ['>']), rfl, c :: inside, rfl, ?_⟩
        rw [List.mem_cons, not_or]
        exact ⟨Ne.symm hc, hinside⟩
  · rintro ⟨x, rfl, inside, rfl, hinside⟩
    refine ⟨rest, ?_, rfl⟩
    rw [List.append_assoc]
    exact tagEnd?_append hinside

/-- **An attribute** is white space, its name, and its value in quotes. -/
theorem attribute?_eq_some_iff {name value rest : Text} (hname : ∀ c ∈ name, isBlank c = false) :
    attribute? name t = some (value, rest) ↔
      ∃ blanks, t = blanks ++ (name ++ ['=', '"'] ++ (value ++ '"' :: rest)) ∧ blanks ≠ [] ∧
        (∀ c ∈ blanks, isBlank c = true) ∧ '"' ∉ value := by
  have hstart : ∀ w : Text, (name ++ ['=', '"'] ++ w).dropWhile isBlank = name ++ ['=', '"'] ++ w := by
    intro w
    cases name with
    | nil => rfl
    | cons n ns => simp [hname n List.mem_cons_self]
  simp only [attribute?, Option.bind_eq_bind, Option.bind_eq_some_iff]
  constructor
  · rintro ⟨w, hblanks, w', hword, hvalue⟩
    obtain ⟨rfl, hquote⟩ := quotedValue?_eq_some_iff.mp hvalue
    obtain rfl := eq_append_of_after? hword
    cases t with
    | nil => cases hblanks
    | cons c cs =>
      rw [blanks?] at hblanks
      split_ifs at hblanks with hc
      have hdrop := Option.some.inj hblanks
      refine ⟨c :: cs.takeWhile isBlank, ?_, List.cons_ne_nil _ _, ?_, hquote⟩
      · rw [← hdrop, List.cons_append, List.takeWhile_append_dropWhile]
      · exact List.forall_mem_cons.mpr ⟨hc, List.all_eq_true.mp List.all_takeWhile⟩
  · rintro ⟨blanks, rfl, hne, hblank, hquote⟩
    refine ⟨name ++ ['=', '"'] ++ (value ++ '"' :: rest), ?_, value ++ '"' :: rest,
      after?_append _ _, quotedValue?_eq_some_iff.mpr ⟨rfl, hquote⟩⟩
    cases blanks with
    | nil => exact absurd rfl hne
    | cons c cs =>
      obtain ⟨hc, hcs⟩ := List.forall_mem_cons.mp hblank
      rw [List.cons_append, blanks?, if_pos hc, List.dropWhile_append_of_pos hcs, hstart]

/-- So is an attribute, up to the quote behind its value. -/
theorem takesOff_attribute? {name : Text} (hname : ∀ c ∈ name, isBlank c = false) :
    TakesOff (attribute? name) := by
  refine ⟨fun x value => ∃ blanks, x = blanks ++ (name ++ ['=', '"'] ++ (value ++ ['"'])) ∧
    blanks ≠ [] ∧ (∀ c ∈ blanks, isBlank c = true) ∧ '"' ∉ value, fun t value rest => ?_⟩
  rw [attribute?_eq_some_iff hname]
  constructor
  · rintro ⟨blanks, rfl, h⟩
    exact ⟨_, by simp, blanks, rfl, h⟩
  · rintro ⟨x, rfl, blanks, rfl, h⟩
    exact ⟨blanks, by simp, h⟩

theorem takesOff_filledAttribute? {name : Text} (hname : ∀ c ∈ name, isBlank c = false) :
    TakesOff (filledAttribute? name) := by
  obtain ⟨p, hp⟩ := takesOff_attribute? hname
  refine ⟨fun x value => p x value ∧ value ≠ [], fun t value rest => ?_⟩
  have hfilled : filledAttribute? name t = some (value, rest) ↔
      attribute? name t = some (value, rest) ∧ value ≠ [] := by
    rw [filledAttribute?]
    cases attribute? name t with
    | none => simp
    | some found =>
      simp only [Option.bind_eq_bind, Option.bind_some, List.isEmpty_iff]
      split_ifs with hempty <;> grind
  rw [hfilled, hp]
  constructor
  · rintro ⟨⟨x, rfl, hx⟩, hne⟩
    exact ⟨x, rfl, hx, hne⟩
  · rintro ⟨x, rfl, hx, hne⟩
    exact ⟨⟨x, rfl, hx⟩, hne⟩

/-! ### Bodies -/

/-- A closing tag that ends with `>` ends in front of a text without it. -/
theorem prefix_append_iff_of_not_mem {word : Text} (hv : '>' ∉ v) :
    word ++ ['>'] <+: t ++ v ↔ word ++ ['>'] <+: t := by
  refine ⟨fun h => ?_, fun h => h.trans (List.prefix_append t v)⟩
  rcases List.prefix_or_prefix_of_prefix h (List.prefix_append t v) with hword | ⟨y, hy⟩
  · exact hword
  · -- otherwise the bracket at the end would be one of the text behind
    obtain ⟨w, hw⟩ := h
    rw [← hy, List.append_assoc, List.append_cancel_left_eq] at hw
    cases y using List.reverseRecOn with
    | nil => exact ⟨[], by rw [← hy, List.append_nil, List.append_nil]⟩
    | append_singleton ys c =>
      rw [← List.append_assoc] at hy
      obtain ⟨-, hc⟩ := List.append_inj' hy rfl
      obtain rfl : c = '>' := by simpa using hc
      exact absurd (hw ▸ by simp) hv

/-- The search for a closing tag that is at least as long as the opening one. -/
theorem endsInTag_bodyUntil? {opening word : Text} (hlength : opening.length ≤ word.length) :
    EndsInTag (bodyUntil? opening (word ++ ['>'])) where
  nil := rfl
  append t v hv := by
    have hclosing : ∀ t : Text, after? (word ++ ['>']) (t ++ v) =
        (after? (word ++ ['>']) t).map (· ++ v) := by
      intro t
      cases hafter : after? (word ++ ['>']) t with
      | none =>
        rw [Option.map_none, after?_eq_none_iff, prefix_append_iff_of_not_mem hv]
        exact after?_eq_none_iff.mp hafter
      | some rest =>
        rw [eq_append_of_after? hafter, List.append_assoc, after?_append, Option.map_some]
    have hbehind : bodyUntil? opening (word ++ ['>']) v = none := by
      clear t hclosing
      cases hbody : bodyUntil? opening (word ++ ['>']) v with
      | none => rfl
      | some found =>
        refine absurd ?_ hv
        rw [eq_of_bodyUntil? (show _ = some (found.1, found.2) from hbody)]
        simp
    induction t with
    | nil => exact hbehind
    | cons c cs ih =>
      rw [List.cons_append, bodyUntil?, ← List.cons_append, hclosing, bodyUntil?]
      cases after? (word ++ ['>']) (c :: cs) with
      | some rest => rfl
      | none =>
        by_cases hopen : startsWith opening (c :: cs) = true
        · have hmore : startsWith opening (c :: cs ++ v) = true :=
            startsWith_iff.mpr ((startsWith_iff.mp hopen).trans (List.prefix_append _ v))
          simp only [Option.map_none, hopen, hmore, if_true]
        · simp only [Option.map_none, if_neg hopen]
          by_cases hmore : startsWith opening (c :: cs ++ v) = true
          · -- an opening tag that goes on behind the text leaves no room for a closing one
            rw [if_pos hmore]
            cases hbody : bodyUntil? opening (word ++ ['>']) cs with
            | none => rfl
            | some found =>
              refine absurd (startsWith_iff.mpr ?_) hopen
              refine List.prefix_of_prefix_length_le (startsWith_iff.mp hmore)
                (List.prefix_append _ v) ?_
              have heq := congrArg List.length
                (eq_of_bodyUntil? (show _ = some (found.1, found.2) from hbody))
              simp only [List.length_append, List.length_cons] at heq ⊢
              omega
          · rw [if_neg hmore, ih]
            cases bodyUntil? opening (word ++ ['>']) cs <;> rfl

theorem endsInTag_restAndBody? {opening closing word : Text} (hclosing : closing = word ++ ['>'])
    (hlength : opening.length ≤ word.length) : EndsInTag (restAndBody? opening closing) := by
  subst hclosing
  have heq : restAndBody? opening (word ++ ['>']) = fun t =>
      ((tagEnd? t).map fun rest => ((), rest)).bind fun found =>
        bodyUntil? opening (word ++ ['>']) found.2 := by
    funext t
    rw [restAndBody?]
    cases tagEnd? t <;> rfl
  rw [heq]
  exact .behind takesOff_tagEnd? fun _ => endsInTag_bodyUntil? hlength

/-! ### Conditionals and loops -/

/-- Conditionals end in a tag. -/
theorem endsInTag_conditional? : EndsInTag conditional? := by
  have hbody : EndsInTag (restAndBody? ifOpening ifClosing) :=
    endsInTag_restAndBody? (show ifClosing = "</hb-if".toList ++ ['>'] from rfl) (by decide)
  have hattribute : TakesOff (attribute? "condition".toList) := takesOff_attribute? (by decide)
  have hwith : EndsInTag conditionalWith? :=
    EndsInTag.behind hattribute fun value => hbody.map fun body => (⟨some value, body⟩ : Conditional)
  have hwithout : EndsInTag conditionalWithout? := hbody.map fun body => (⟨none, body⟩ : Conditional)
  have hconditional := EndsInTag.behind (takesOff_literal ifOpening) fun _ => hwith.or hwithout
  have heq : ∀ t, conditional? t = (literal ifOpening t).bind fun found =>
      (conditionalWith? found.2).or (conditionalWithout? found.2) := fun t => by
    rw [conditional?, literal, Option.bind_eq_bind, Option.bind_map]
    rfl
  rwa [← funext heq] at hconditional

/-- Loops end in a tag. -/
theorem endsInTag_loop? : EndsInTag loop? := by
  have hbody : EndsInTag (restAndBody? eachOpening eachClosing) :=
    endsInTag_restAndBody? (show eachClosing = "</hb-each".toList ++ ['>'] from rfl) (by decide)
  have harray : TakesOff (filledAttribute? "array".toList) := takesOff_filledAttribute? (by decide)
  have hname : TakesOff (filledAttribute? "itemVar".toList) := takesOff_filledAttribute? (by decide)
  have hwith : ∀ array, EndsInTag (loopWith? array) := fun array =>
    EndsInTag.behind hname fun name => hbody.map fun body => (⟨array, some name, body⟩ : Loop)
  have hwithout : ∀ array, EndsInTag (loopWithout? array) := fun array =>
    hbody.map fun body => (⟨array, none, body⟩ : Loop)
  have hloop := EndsInTag.behind (takesOff_literal eachOpening) fun _ =>
    EndsInTag.behind harray fun array => (hwith array).or (hwithout array)
  have heq : ∀ t, loop? t = (literal eachOpening t).bind fun found =>
      (filledAttribute? "array".toList found.2).bind fun array =>
        (loopWith? array.1 array.2).or (loopWithout? array.1 array.2) := fun t => by
    rw [loop?, literal, Option.bind_eq_bind, Option.bind_map]
    rfl
  rwa [← funext heq] at hloop

/-! ### Passes over markup with text around -/

/-- A matcher for what stands **between angle brackets**. -/
structure Bracketed (m : Text.Matcher α) : Prop extends EndsInTag m where
  head? : ∀ t f rest, m t = some (f, rest) → t.head? = some '<'

theorem bracketed_conditional? : Bracketed conditional? where
  toEndsInTag := endsInTag_conditional?
  head? t f rest h := by
    obtain ⟨inside, rfl, -⟩ := exists_of_conditional? h
    rfl

theorem bracketed_loop? : Bracketed loop? where
  toEndsInTag := endsInTag_loop?
  head? t f rest h := by
    obtain ⟨inside, rfl⟩ := exists_of_loop? h
    rfl

section Surrounded

variable {m : Text.Matcher α} (hu : '<' ∉ u) (hv : '>' ∉ v)

include hu hv

/-- The text around markup is left alone, character by character. -/
theorem Bracketed.pieces_surrounded (hm : Bracketed m) (t : Text) :
    pieces m (u ++ t ++ v) = u.map .char ++ (pieces m t ++ v.map .char) := by
  have hfront : EveryTail (fun s => m (s ++ (t ++ v)) = none) u := by
    refine everyTail_of_split fun before c after hsplit => ?_
    by_contra hfound
    obtain ⟨found, hfound⟩ := Option.ne_none_iff_exists'.mp hfound
    obtain rfl : c = '<' := by simpa using hm.head? _ _ _ hfound
    exact hu (by simp [hsplit])
  have hbehind : EveryTail (fun s => m s = none) v :=
    everyTail_of_suffix fun s hs => hm.eq_none fun hmem => hv (hs.subset hmem)
  rw [List.append_assoc, pieces_append_of_none hfront]
  congr 1
  exact piecesFrom_append_right hm.nil hbehind (hm.append · v hv) (Nat.zero_le _)

/-- **One pass** does to markup what it does without the text around. -/
theorem Bracketed.pass?_surrounded (hm : Bracketed m) (lower : α → Text) (t : Text) :
    pass? m lower (u ++ t ++ v) =
      (pass? m lower t).map fun next => (u ++ next.1 ++ v, next.2) := by
  have hpieces := hm.pieces_surrounded hu hv t
  rw [pass?, pass?, hpieces]
  simp only [List.filterMap_append, filterMap_found?_char, List.nil_append, List.append_nil,
    List.flatMap_append, flatMap_text_char]
  split_ifs
  · rfl
  · rw [Option.map_some, List.append_assoc]

/-- **All passes**, one like the other. -/
theorem Bracketed.settle_surrounded (hm : Bracketed m) (lower : α → Text) (bound : ℕ) (t : Text) :
    settle m lower bound (u ++ t ++ v) =
      (u ++ (settle m lower bound t).1 ++ v, (settle m lower bound t).2) := by
  induction bound generalizing t with
  | zero => rfl
  | succ bound ih =>
    rw [settle, hm.pass?_surrounded hu hv, settle]
    cases pass? m lower t with
    | none => rfl
    | some next =>
      rw [Option.map_some]
      dsimp only
      rw [ih]

/-- The text around makes room for more passes, but there are no more. -/
theorem lowerConditionals_surrounded (t : Text) :
    lowerConditionals (u ++ t ++ v) =
      (u ++ (lowerConditionals t).1 ++ v, (lowerConditionals t).2) := by
  obtain ⟨_, _, hsettles⟩ := settles_lowerConditionals t
  have hmore := bracketed_conditional?.settle_surrounded hu hv lowerConditional (t.length + 1) t
  have hnone : pass? conditional? lowerConditional
      (settle conditional? lowerConditional (t.length + 1) (u ++ t ++ v)).1 = none := by
    rw [hmore, bracketed_conditional?.pass?_surrounded hu hv]
    exact congrArg _ hsettles.pass?_eq_none
  have hlength : t.length + 1 ≤ (u ++ t ++ v).length + 1 := by
    simp only [List.length_append]
    omega
  rw [lowerConditionals, settle_of_le hnone hlength, hmore]
  rfl

/-- The loops of surrounded markup are those of the markup. -/
theorem lowerLoops_surrounded {t : Text} (h : pass? loop? lowerLoop (lowerLoops t).1 = none) :
    lowerLoops (u ++ t ++ v) = (u ++ (lowerLoops t).1 ++ v, (lowerLoops t).2) := by
  obtain ⟨n, hn⟩ := exists_lowerLoops_eq t
  have hmore := bracketed_loop?.settle_surrounded hu hv lowerLoop n t
  have hnone : pass? loop? lowerLoop (settle loop? lowerLoop n (u ++ t ++ v)).1 = none := by
    rw [hmore, bracketed_loop?.pass?_surrounded hu hv, ← hn, h, Option.map_none]
  rw [lowerLoops_eq hnone, hmore, hn]

/-- **Text around markup.** If lowering markup comes to an end, then text in front of it without `<` and
text behind it without `>` stay as they are, and the markup between them is lowered, fails and writes
down what happens as it does without them. -/
theorem lowerTags_surrounded {x : Text} (hx : Converges x) :
    Converges (u ++ x ++ v) ∧ ∀ journal, lowerTags (u ++ x ++ v) journal =
      ((lowerTags x journal).1.map fun y => u ++ y ++ v, (lowerTags x journal).2) := by
  have hconditionals := lowerConditionals_surrounded hu hv x
  have hloops := lowerLoops_surrounded hu hv hx.2
  have hlowered : lowered (u ++ x ++ v) = u ++ lowered x ++ v := by
    rw [lowered, hconditionals, hloops]
    rfl
  refine ⟨⟨?_, ?_⟩, fun journal => ?_⟩
  · rw [hconditionals, bracketed_conditional?.pass?_surrounded hu hv, hx.1, Option.map_none]
  · rw [hlowered, bracketed_loop?.pass?_surrounded hu hv, hx.2, Option.map_none]
  · have hwork : lowerTags (u ++ x ++ v) = (fun y => u ++ y ++ v) <$> lowerTags x := by
      rw [lowerTags, hlowered, hconditionals, hloops, lowerTags]
      simp only [map_bind, map_pure]
    rw [hwork, map_apply]

end Surrounded

/-- Markup that ends within an attribute. -/
def unclosed : Text := glued ++ "<hb-if condition=\"b".toList

/-- Text with a quote and the end of a tag. -/
def strayEnd : Text := "a\" > ".toList

/-- Text that closes an attribute and has the starts of two tags. -/
def strayStarts : Text := "\" c <hb-each array=\"d\" </hb-if".toList

theorem lowerTags_unclosed :
    '<' ∉ strayEnd ∧ '>' ∉ strayStarts ∧ Converges unclosed ∧
      Converges (strayEnd ++ unclosed ++ strayStarts) ∧
      (lowerTags (strayEnd ++ unclosed ++ strayStarts) []).1.toOption =
        some (strayEnd ++ lowered unclosed ++ strayStarts) ∧
      (lowerTags (strayEnd ++ unclosed ++ strayStarts) []).2 =
        [.conditional true, .conditional false, .loop] := by
  have hu : '<' ∉ strayEnd := by decide +kernel
  have hv : '>' ∉ strayStarts := by decide +kernel
  have hx : Converges unclosed := by decide +kernel
  obtain ⟨hends, hlowered⟩ := lowerTags_surrounded hu hv hx
  rw [hlowered []]
  exact ⟨hu, hv, hx, hends, by decide +kernel, by decide +kernel⟩

end Stencil.Template
