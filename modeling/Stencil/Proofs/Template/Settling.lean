import Stencil.Proofs.Template.Content
import Stencil.Proofs.Template.Stable

/-!
# Settling comes to an end

Passes follow each other until a pass comes to nothing (`Settles`), and nothing in the passes
themselves says that this ever happens: lowering a conditional may bring tags together that were apart,
it repeats the alternative in every block, and the name of an item may complete a tag. Each kind of
occurrence has a size of its own that becomes smaller wherever one is lowered (`Shrinks`).

* For conditionals it is the number of opening and closing tags and of closing tags of alternatives
  (`tagCount`). A conditional takes an opening and a closing tag with it. What is repeated has none of
  these tags, and what comes together on both sides of it forms one new tag at most, or two if the
  alternative is all that is left; but then its own closing tag is gone, too.
* For loops it is the number of quotes. The array of a loop stands in quotes, which are gone with the
  opening tag, and neither its name nor that of the item has any, as long as no reference is decoded.

The main statements are `settles_lowerConditionals` and `settles_lowerLoops`: **the passes over the
conditionals of any text come to an end, and so do those over the loops of a text without references.**
The limit on the passes is none, then: settling with any higher one gives the same text
(`Settles.settle_eq`). Where references are decoded, lowering comes to an end exactly if the passes over
the loops do (`converges_iff`).
-/

namespace Stencil.Template

open Text

/-! ### Passes without a limit -/

section Settles

variable {α : Type} {m : Text.Matcher α} {lower : α → Text}

/-- **Settling.** After some number of passes a text has become one that a pass does nothing to. -/
inductive Settles (m : Text.Matcher α) (lower : α → Text) : ℕ → Text → Text → Prop where
  /-- There is nothing to lower. -/
  | done {t : Text} (nothing : pass? m lower t = none) : Settles m lower 0 t t
  /-- A pass, and all that follow it. -/
  | pass {n : ℕ} {t t' u : Text} {now : List α} (next : pass? m lower t = some (t', now))
      (rest : Settles m lower n t' u) : Settles m lower (n + 1) t u

/-- In a text that has settled nothing is recognised. -/
theorem Settles.pass?_eq_none {n : ℕ} {t u : Text} (h : Settles m lower n t u) :
    pass? m lower u = none := by
  induction h with
  | done nothing => exact nothing
  | pass _ _ ih => exact ih

/-- A limit that is not reached does not matter. -/
theorem Settles.settle_eq {n bound : ℕ} {t u : Text} (h : Settles m lower n t u) (hn : n ≤ bound) :
    (settle m lower bound t).1 = u := by
  induction h generalizing bound with
  | done nothing => rw [settle_of_pass?_eq_none nothing]
  | @pass n t t' u now next rest ih =>
    obtain ⟨bound, rfl⟩ : ∃ b, bound = b + 1 := ⟨bound - 1, by omega⟩
    rw [settle, next]
    exact ih (by omega)

/-- Where the limit is not reached, the text has settled. -/
theorem exists_settles_of_pass?_eq_none {bound : ℕ} {t : Text}
    (h : pass? m lower (settle m lower bound t).1 = none) :
    ∃ n ≤ bound, Settles m lower n t (settle m lower bound t).1 := by
  induction bound generalizing t with
  | zero => exact ⟨0, le_refl 0, .done h⟩
  | succ bound ih =>
    cases hnow : pass? m lower t with
    | none =>
      rw [settle_of_pass?_eq_none hnow]
      exact ⟨0, Nat.zero_le _, .done hnow⟩
    | some next =>
      rw [settle, hnow] at h ⊢
      obtain ⟨n, hn, hsettles⟩ := ih h
      exact ⟨n + 1, Nat.succ_le_succ hn, .pass hnow hsettles⟩

/-- A size that becomes smaller wherever an occurrence is lowered, in texts of some sort. -/
structure Shrinks (m : Text.Matcher α) (lower : α → Text) (sort : Text → Prop) (size : Text → ℕ) :
    Prop where
  consumes : Consumes m
  step : ∀ {x rest : Text} {f : α}, m (x ++ rest) = some (f, rest) → ∀ u, sort (u ++ x ++ rest) →
    sort (u ++ lower f ++ rest) ∧ size (u ++ lower f ++ rest) < size (u ++ x ++ rest)

namespace Shrinks

variable {sort : Text → Prop} {size : Text → ℕ} (h : Shrinks m lower sort size)

include h

/-- A walk makes a text smaller with every occurrence, whatever is in front of it. -/
theorem passed {t t' : Text} {found : List α} (hpassed : Passed m lower t t' found) (u : Text)
    (hsort : sort (u ++ t)) : sort (u ++ t') ∧ size (u ++ t') + found.length ≤ size (u ++ t) := by
  induction hpassed generalizing u with
  | nil => exact ⟨hsort, le_refl _⟩
  | @char c t t' found _ _ ih =>
    have hfront : ∀ v : Text, u ++ c :: v = u ++ [c] ++ v := fun v => by simp
    rw [hfront t] at hsort
    rw [hfront t', hfront t]
    exact ih _ hsort
  | @hit x t t' f found _ taken _ ih =>
    rw [← List.append_assoc] at hsort
    obtain ⟨hlowered, hsmaller⟩ := h.step taken u hsort
    obtain ⟨hkept, hsize⟩ := ih _ hlowered
    rw [← List.append_assoc, ← List.append_assoc, List.length_cons]
    exact ⟨hkept, by omega⟩

/-- A pass that does something makes a text smaller. -/
theorem pass {t t' : Text} {now : List α} (hnow : pass? m lower t = some (t', now)) (hsort : sort t) :
    sort t' ∧ size t' < size t := by
  have hne : now ≠ [] := by
    rw [pass?] at hnow
    split_ifs at hnow with hempty
    obtain ⟨-, rfl⟩ := Prod.mk.inj (Option.some.inj hnow)
    simpa using hempty
  obtain ⟨hkept, hsize⟩ := h.passed (passed_of_pass? h.consumes hnow) [] hsort
  have hpos := List.length_pos_of_ne_nil hne
  simp only [List.nil_append] at hkept hsize
  exact ⟨hkept, by omega⟩

/-- **All passes.** There are at most as many as the text is large. -/
theorem exists_settles {t : Text} (hsort : sort t) : ∃ n ≤ size t, ∃ u, Settles m lower n t u := by
  induction hsize : size t using Nat.strong_induction_on generalizing t with
  | h k ih =>
    subst hsize
    cases hnow : pass? m lower t with
    | none => exact ⟨0, Nat.zero_le _, t, .done hnow⟩
    | some next =>
      obtain ⟨t', now⟩ := next
      obtain ⟨hkept, hsmaller⟩ := h.pass hnow hsort
      obtain ⟨n, hn, u, hsettles⟩ := ih (size t') hsmaller hkept rfl
      exact ⟨n + 1, by omega, u, .pass hnow hsettles⟩

/-- What is lowered is recognised in a text of the sort. -/
theorem exists_of_mem_settle {bound : ℕ} {t : Text} (hsort : sort t) {f : α}
    (hf : f ∈ (settle m lower bound t).2) :
    ∃ u s rest, sort u ∧ s <:+ u ∧ m s = some (f, rest) := by
  induction bound generalizing t with
  | zero => simp [settle] at hf
  | succ bound ih =>
    cases hnow : pass? m lower t with
    | none => simp [settle_of_pass?_eq_none hnow] at hf
    | some next =>
      obtain ⟨t', now⟩ := next
      rw [settle, hnow] at hf
      rcases List.mem_append.mp hf with hf | hf
      · obtain ⟨s, rest, hs, hm⟩ := (passed_of_pass? h.consumes hnow).exists_of_mem hf
        exact ⟨t, s, rest, hsort, hs, hm⟩
      · exact ih (h.pass hnow hsort).1 hf

/-- A limit that is as large as the text is none. -/
theorem settles_settle {bound : ℕ} {t : Text} (hsort : sort t) (hbound : size t ≤ bound) :
    ∃ n ≤ size t, Settles m lower n t (settle m lower bound t).1 := by
  obtain ⟨n, hn, u, hsettles⟩ := h.exists_settles hsort
  rw [hsettles.settle_eq (hn.trans hbound)]
  exact ⟨n, hn, hsettles⟩

end Shrinks

end Settles

/-! ### Counting tags -/

/-- The tags that count: those of conditionals, and closing ones of alternatives. -/
def countedTags : List Text := [ifOpening, ifClosing, elseClosing]

/-- Whether a text starts with a tag that counts. -/
def startsTag (t : Text) : Bool := countedTags.any fun word => startsWith word t

/-- **The size for conditionals**: how many tags that count begin in a text. -/
def tagCount : Text → ℕ
  | [] => 0
  | c :: cs => (if startsTag (c :: cs) then 1 else 0) + tagCount cs

section TagCount

variable {t u v : Text} {c : Char}

theorem startsTag_iff : startsTag t = true ↔ ∃ word ∈ countedTags, word <+: t := by
  simp [startsTag, startsWith_iff]

/-- A tag that counts begins with an angle bracket, and has no other one and no brace. -/
private theorem exists_of_mem_countedTags {word : Text} (h : word ∈ countedTags) :
    ∃ w, word = '<' :: w ∧ '<' ∉ w ∧ '\x7b' ∉ w := by
  have hall : ∀ word ∈ countedTags,
      word.head? = some '<' ∧ '<' ∉ word.tail ∧ '\x7b' ∉ word.tail := by decide
  obtain ⟨hhead, htail⟩ := hall word h
  obtain ⟨w, rfl⟩ := List.head?_eq_some_iff.mp hhead
  exact ⟨w, rfl, htail⟩

theorem startsTag_append (h : startsTag t = true) (v : Text) : startsTag (t ++ v) = true := by
  obtain ⟨word, hword, hp⟩ := startsTag_iff.mp h
  exact startsTag_iff.mpr ⟨word, hword, hp.trans (List.prefix_append t v)⟩

theorem startsTag_cons_of_ne (h : c ≠ '<') (t : Text) : startsTag (c :: t) = false := by
  rw [← Bool.not_eq_true, startsTag_iff]
  rintro ⟨word, hword, hp⟩
  obtain ⟨w, rfl, -⟩ := exists_of_mem_countedTags hword
  exact h (List.cons_prefix_cons.mp hp).1.symm

theorem tagCount_le_length (t : Text) : tagCount t ≤ t.length := by
  induction t with
  | nil => exact le_refl _
  | cons c cs ih =>
    rw [tagCount, List.length_cons]
    split_ifs <;> omega

/-- All tags of both parts are tags of the whole. -/
theorem tagCount_add_le (u v : Text) : tagCount u + tagCount v ≤ tagCount (u ++ v) := by
  induction u with
  | nil => simp [tagCount]
  | cons c cs ih =>
    rw [List.cons_append, tagCount, tagCount]
    by_cases hstarts : startsTag (c :: cs) = true
    · have hwhole : startsTag (c :: (cs ++ v)) = true := startsTag_append hstarts v
      rw [if_pos hstarts, if_pos hwhole]
      omega
    · rw [if_neg hstarts]
      omega

theorem tagCount_append_of_not_mem (h : '<' ∉ u) (v : Text) : tagCount (u ++ v) = tagCount v := by
  induction u with
  | nil => rfl
  | cons c cs ih =>
    simp only [List.mem_cons, not_or] at h
    rw [List.cons_append, tagCount, startsTag_cons_of_ne (Ne.symm h.1), ih h.2]
    simp

/-- No tag reaches over a brace. -/
theorem tagCount_append_brace (u v : Text) :
    tagCount (u ++ '\x7b' :: v) = tagCount u + tagCount ('\x7b' :: v) := by
  induction u with
  | nil => simp [tagCount]
  | cons c cs ih =>
    have hsame : startsTag (c :: (cs ++ '\x7b' :: v)) = startsTag (c :: cs) := by
      rw [Bool.eq_iff_iff, startsTag_iff, startsTag_iff]
      refine exists_congr fun word => and_congr_right fun hword => ?_
      obtain ⟨w, rfl, -, hbrace⟩ := exists_of_mem_countedTags hword
      rw [List.cons_prefix_cons, List.cons_prefix_cons]
      exact and_congr_right fun _ => ⟨fun hp => prefix_of_prefix_append_cons hp hbrace,
        fun hp => hp.trans (List.prefix_append cs _)⟩
    rw [List.cons_append, tagCount, tagCount, hsame, ih]
    omega

/-- One new tag at most comes of putting two texts together. -/
theorem tagCount_append_le (u v : Text) : tagCount (u ++ v) ≤ tagCount u + tagCount v + 1 := by
  induction u with
  | nil => simp [tagCount]
  | cons c cs ih =>
    rw [List.cons_append, tagCount, tagCount]
    by_cases hwhole : startsTag (c :: (cs ++ v)) = true
    · by_cases hstarts : startsTag (c :: cs) = true
      · rw [if_pos hwhole, if_pos hstarts]
        omega
      · -- the new tag reaches over all of `cs`, so that no other tag begins there
        have hangle : '<' ∉ cs := by
          obtain ⟨word, hword, hp⟩ := startsTag_iff.mp hwhole
          obtain ⟨w, rfl, hw, -⟩ := exists_of_mem_countedTags hword
          obtain ⟨rfl, hrest⟩ := List.cons_prefix_cons.mp hp
          rcases List.prefix_or_prefix_of_prefix hrest (List.prefix_append cs v) with h | h
          · exact absurd (startsTag_iff.mpr ⟨_, hword, List.cons_prefix_cons.mpr ⟨rfl, h⟩⟩) hstarts
          · exact fun hmem => hw (h.subset hmem)
        rw [if_pos hwhole, tagCount_append_of_not_mem hangle]
        omega
    · rw [if_neg hwhole]
      omega

theorem tagCount_eq_zero (h : ∀ word ∈ countedTags, ¬ word <:+: t) : tagCount t = 0 := by
  induction t with
  | nil => rfl
  | cons c cs ih =>
    have hnone : startsTag (c :: cs) = false := by
      rw [← Bool.not_eq_true, startsTag_iff]
      rintro ⟨word, hword, hp⟩
      exact h word hword hp.isInfix
    rw [tagCount, hnone, ih fun word hword hinfix => h word hword (List.infix_cons hinfix)]
    rfl

theorem tagCount_append_braced {p : Text} (hp : '<' ∉ p) (u v : Text) :
    tagCount (u ++ (braced p ++ v)) = tagCount u + tagCount v := by
  have hnone : '<' ∉ braced p := by simp [braced, hp]
  have hmiddle := tagCount_append_of_not_mem hnone v
  rw [braced, List.cons_append, List.cons_append] at hmiddle ⊢
  rw [tagCount_append_brace, hmiddle]

/-! ### Lowering a conditional -/

/-- The tags of a block keep those before it, in it and behind it apart. -/
theorem tagCount_block {conjunct : Text} (h : '<' ∉ conjunct) (u t v : Text) :
    tagCount (u ++ ((Block.ofConjunct conjunct).opening ++ t ++
      (Block.ofConjunct conjunct).closing) ++ v) = tagCount u + tagCount t + tagCount v := by
  obtain ⟨p, q, hp, hq, heq⟩ : ∃ p q, '<' ∉ p ∧ '<' ∉ q ∧
      Block.ofConjunct conjunct = ⟨braced p, braced q⟩ := by
    have hplain := Block.plain_ofConjunct h
    rw [Block.ofConjunct_eq] at hplain ⊢
    refine ⟨_, _, fun hmem => hplain.1 ?_, fun hmem => hplain.2 ?_, rfl⟩
    · exact List.mem_cons_of_mem _ (List.mem_cons_of_mem _ (List.mem_append_left _ hmem))
    · exact List.mem_cons_of_mem _ (List.mem_cons_of_mem _ (List.mem_append_left _ hmem))
  have hflat : u ++ (braced p ++ t ++ braced q) ++ v = u ++ (braced p ++ (t ++ (braced q ++ v))) := by
    simp
  rw [heq, hflat, tagCount_append_braced hp, tagCount_append_braced hq, Nat.add_assoc]

theorem encloseWith_cons (a t : Text) (b : Block) (bs : List Block) :
    encloseWith a t (b :: bs) =
      b.opening ++ (encloseWith a t bs ++ (elseTag ++ a)) ++ b.closing := by
  simp [encloseWith]

section Enclosed

variable {xs : List Text} (hxs : ∀ x ∈ xs, '<' ∉ x)

include hxs

theorem tagCount_enclose (t : Text) : tagCount (enclose t (xs.map .ofConjunct)) = tagCount t := by
  induction xs with
  | nil => rfl
  | cons x xs ih =>
    have hblock := tagCount_block (hxs x (by simp)) [] (enclose t (xs.map .ofConjunct)) []
    simp only [List.nil_append, List.append_nil, tagCount, Nat.zero_add, Nat.add_zero] at hblock
    rw [List.map_cons, enclose, hblock, ih fun y hy => hxs y (by simp [hy])]

/-- An alternative without tags adds none, however often it is repeated. -/
theorem tagCount_encloseWith {a : Text} (ha : tagCount a = 0) (t : Text) :
    tagCount (encloseWith a t (xs.map .ofConjunct)) = tagCount t := by
  induction xs with
  | nil => rfl
  | cons x xs ih =>
    have hblock := tagCount_block (hxs x (by simp)) []
      (encloseWith a t (xs.map .ofConjunct) ++ (elseTag ++ a)) []
    simp only [List.nil_append, List.append_nil, tagCount, Nat.zero_add, Nat.add_zero] at hblock
    rw [List.map_cons, encloseWith_cons, hblock, elseTag, tagCount_append_braced (by decide), ha,
      Nat.add_zero, ih fun y hy => hxs y (by simp [hy])]

end Enclosed

/-- The alternative goes to the first closing tag, and so has none in it. -/
theorem absent_of_alternative? {body : Text} {a : Alternative} (h : alternative? body = some a) :
    ¬ elseClosing <:+: a.inside := by
  have region : ∀ {t : Text} {a : Alternative}, elseRegion? t = some a →
      ¬ elseClosing <:+: a.inside := by
    intro t a h
    simp only [elseRegion?, Option.bind_eq_bind, Option.bind_eq_some_iff, Prod.exists,
      Option.some.injEq] at h
    obtain ⟨v, -, inside, after, hcut, rfl⟩ := h
    exact absent_of_cut? (by decide) hcut
  suffices ∀ (t : Text) (depth skip : ℕ) (a : Alternative), findAlternative depth skip t = some a →
      ¬ elseClosing <:+: a.inside from this body 0 0 a h
  clear h
  intro t
  induction t with
  | nil =>
    intro depth skip a h
    cases skip <;> simp [findAlternative] at h
  | cons c cs ih =>
    intro depth skip a h
    have behind : ∀ {d s : ℕ}, (findAlternative d s cs).map (.cons c) = some a →
        ¬ elseClosing <:+: a.inside := by
      intro d s h
      obtain ⟨b, hb, rfl⟩ := Option.map_eq_some_iff.mp h
      exact ih d s b hb
    cases skip with
    | succ skip => exact behind h
    | zero =>
      rw [findAlternative] at h
      split at h
      · exact behind h
      · split at h
        · exact region h
        · exact behind h

/-- A body has the tags around its alternative, and the closing one of that. -/
theorem tagCount_of_alternative? {body : Text} {a : Alternative} (h : alternative? body = some a) :
    tagCount a.before + tagCount a.after + 1 ≤ tagCount body := by
  have hclosing : tagCount elseClosing = 1 := by decide
  have hbody := tagCount_add_le (a.before ++ (elseOpening ++ a.inside)) (elseClosing ++ a.after)
  have hbefore := tagCount_add_le a.before (elseOpening ++ a.inside)
  have hbehind := tagCount_add_le elseClosing a.after
  have heq : body = a.before ++ (elseOpening ++ a.inside) ++ (elseClosing ++ a.after) := by
    rw [eq_of_alternative? h]
    simp
  rw [heq]
  omega

/-- In a body without tags of conditionals the alternative has no tags. -/
private theorem tagCount_inside {body : Text} (hopening : ¬ ifOpening <:+: body)
    (hclosing : ¬ ifClosing <:+: body) {a : Alternative} (ha : alternative? body = some a) :
    tagCount a.inside = 0 := by
  have hpart : a.inside <:+: body :=
    ⟨a.before ++ elseOpening, elseClosing ++ a.after, by rw [eq_of_alternative? ha]; simp⟩
  refine tagCount_eq_zero fun word hword hp => ?_
  simp only [countedTags, List.mem_cons, List.not_mem_nil, or_false] at hword
  obtain rfl | rfl | rfl := hword
  · exact hopening (hp.trans hpart)
  · exact hclosing (hp.trans hpart)
  · exact absent_of_alternative? ha hp

/-- What a conditional is lowered to has no more tags than its body, and comes together with what is
around it to one more at most. -/
theorem tagCount_lowerConditional_le {c : Conditional} (hopening : ¬ ifOpening <:+: c.body)
    (hclosing : ¬ ifClosing <:+: c.body) (u v : Text) :
    tagCount (u ++ lowerConditional c ++ v) ≤ tagCount u + tagCount c.body + tagCount v + 1 := by
  have hjoined := tagCount_append_le u v
  rw [lowerConditional]
  cases hcondition : Condition.validateText (decodeCondition c.condition) with
  | error failure =>
    rw [hiddenConditional]
    cases ha : alternative? c.body with
    | none =>
      simp only [List.append_nil]
      omega
    | some a =>
      -- a tag may form on either side, but a closing tag of the body is gone
      have hbefore := tagCount_append_le u a.inside
      have hbehind := tagCount_append_le (u ++ a.inside) v
      have hbody := tagCount_of_alternative? ha
      have hnone := tagCount_inside hopening hclosing ha
      dsimp only
      omega
  | ok condition =>
    have hplain : ∀ x ∈ Condition.splitConjuncts condition, '<' ∉ x := fun x hx =>
      (show Condition.IsForeign '<' by decide).not_mem_of_mem_splitConjuncts hcondition hx
    obtain ⟨x, xs, hxs⟩ := List.exists_cons_of_ne_nil (Condition.splitConjuncts_ne_nil condition)
    rw [hxs] at hplain
    obtain ⟨hx, hrest⟩ := List.forall_mem_cons.mp hplain
    dsimp only
    rw [shownConditional, blocks, hxs, List.map_cons]
    cases ha : alternative? c.body with
    | none =>
      dsimp only
      rw [enclose, tagCount_block hx, tagCount_enclose hrest]
      omega
    | some a =>
      have hbody := tagCount_of_alternative? ha
      have hjoined := tagCount_append_le a.before a.after
      have hnone := tagCount_inside hopening hclosing ha
      dsimp only
      rw [encloseWith_cons, tagCount_block hx, elseTag, tagCount_append_braced (by decide),
        tagCount_encloseWith hrest hnone]
      omega

/-- **Conditionals shrink.** An opening and a closing tag are gone wherever one is lowered. -/
theorem shrinks_conditionals :
    Shrinks conditional? lowerConditional (fun _ => True) tagCount where
  consumes := consumes_conditional?
  step := by
    intro x rest c hc u _
    obtain ⟨inside, hx, hopening, hclosing⟩ := exists_of_conditional? hc
    obtain rfl := List.append_cancel_right hx
    refine ⟨trivial, lt_of_le_of_lt (tagCount_lowerConditional_le hopening hclosing u rest) ?_⟩
    have hflat : u ++ (ifOpening ++ inside ++ ['>'] ++ c.body ++ ifClosing) ++ rest =
        u ++ (ifOpening ++ (inside ++ ['>'] ++ (c.body ++ (ifClosing ++ rest)))) := by simp
    have hone : tagCount ifOpening = 1 ∧ tagCount ifClosing = 1 := by decide
    have hu := tagCount_add_le u (ifOpening ++ (inside ++ ['>'] ++ (c.body ++ (ifClosing ++ rest))))
    have hopen := tagCount_add_le ifOpening (inside ++ ['>'] ++ (c.body ++ (ifClosing ++ rest)))
    have htag := tagCount_add_le (inside ++ ['>']) (c.body ++ (ifClosing ++ rest))
    have hbody := tagCount_add_le c.body (ifClosing ++ rest)
    have hclose := tagCount_add_le ifClosing rest
    rw [hflat]
    omega

end TagCount

/-! ### Lowering a loop -/

/-- Naming an item brings no quotes into a text. -/
theorem count_nameItem_le {name : Text} (hname : '"' ∉ name) (array t : Text) :
    (nameItem array name t).count '"' ≤ t.count '"' := by
  have hne := representative_ne_nil array
  suffices ∀ previous,
      (replaceStarts (representative array) name previous 0 t).count '"' ≤ t.count '"' from this none
  intro previous
  induction previous, t using replaceStarts_induction hne with
  | nil previous => simp [replaceStarts]
  | append_word previous v hstarts ih =>
    rw [replaceStarts_append_word hstarts hne, List.count_append, List.count_append,
      List.count_eq_zero.mpr hname, Nat.zero_add]
    exact ih.trans (Nat.le_add_left _ _)
  | cons previous c t hkept ih =>
    rw [replaceStarts_cons hkept, List.count_cons, List.count_cons]
    omega

/-- A character of the opening tag of a loop block is in the path, in the name or in neither. -/
private theorem not_mem_loopOpening {c : Char} (hc : c ∉ "\x7b\x7b#each as ||\x7d\x7d".toList)
    {path : Text} (hpath : c ∉ path) {name? : Option Text} (hname : ∀ name ∈ name?, c ∉ name) :
    c ∉ loopOpening path name? := by
  cases name? with
  | none => simp_all [loopOpening, braced]
  | some name => simp_all [loopOpening, braced]

/-- **Loops shrink.** The quotes of the array are gone wherever a loop without references is lowered.
-/
theorem shrinks_loops : Shrinks loop? lowerLoop (fun t => '&' ∉ t) (List.count '"') where
  consumes := consumes_loop?
  step := by
    intro x rest l hl u hreference
    obtain ⟨inside, hx, hquote, ⟨harray, harrayQuote⟩, hname⟩ := exists_names_of_loop? hl
    obtain rfl := List.append_cancel_right hx
    have hwithout : '&' ∉ u ∧ '&' ∉ inside ∧ '&' ∉ l.body ∧ '&' ∉ rest := by
      simp only [List.mem_append, not_or] at hreference
      tauto
    obtain ⟨hu, hinside, hbody, hrest⟩ := hwithout
    -- without references the names are what is written
    have hpath : l.path = l.array := decodeReferences_of_not_mem fun h => hinside (harray.subset h)
    have hown : ∀ name ∈ l.name?, '&' ∉ name ∧ '"' ∉ name := by
      intro name h
      obtain ⟨hmap, -⟩ := Option.filter_eq_some_iff.mp h
      obtain ⟨own, hmem, rfl⟩ := Option.map_eq_some_iff.mp hmap
      obtain ⟨hpart, hquote⟩ := hname own hmem
      have hplain : '&' ∉ own := fun h => hinside (hpart.subset h)
      rw [decodeReferences_of_not_mem hplain]
      exact ⟨hplain, hquote⟩
    have hitem : '&' ∉ itemName l.name? ∧ '"' ∉ itemName l.name? := by
      cases hcase : l.name? with
      | none => decide
      | some name => exact hown name hcase
    rw [lowerLoop_eq, hpath]
    refine ⟨?_, ?_⟩
    · have hopening := not_mem_loopOpening (c := '&') (by decide)
        (fun h => hinside (harray.subset h)) fun name h => (hown name h).1
      have hnamed : '&' ∉ nameItem l.array (itemName l.name?) l.body := fun h =>
        (mem_of_mem_nameItem h).elim hbody hitem.1
      have hclosing : '&' ∉ braced "/each".toList := by decide
      simp only [List.mem_append, not_or]
      exact ⟨⟨hu, ⟨hopening, hnamed⟩, hclosing⟩, hrest⟩
    · have hopening := List.count_eq_zero.mpr <| not_mem_loopOpening (c := '"') (by decide)
        harrayQuote fun name h => (hown name h).2
      have hnamed := count_nameItem_le hitem.2 l.array l.body
      have hclosing : (braced "/each".toList).count '"' = 0 := by decide
      have hinsideCount := List.count_pos_iff.mpr hquote
      simp only [List.count_append]
      omega

/-! ### Both kinds -/

/-- The limit on the passes over conditionals is never reached. -/
theorem settles_lowerConditionals (t : Text) :
    ∃ n ≤ tagCount t, Settles conditional? lowerConditional n t (lowerConditionals t).1 :=
  shrinks_conditionals.settles_settle trivial ((tagCount_le_length t).trans (Nat.le_succ _))

/-- The limit on the passes over loops is never reached without references. -/
theorem settles_lowerLoops {t : Text} (h : '&' ∉ t) :
    ∃ n ≤ t.count '"', Settles loop? lowerLoop n t (lowerLoops t).1 := by
  obtain ⟨n, hn, hsettles⟩ := shrinks_loops.settles_settle h (le_refl (t.count '"'))
  rw [lowerLoops_eq hsettles.pass?_eq_none]
  exact ⟨n, hn, hsettles⟩

/-- Lowering a text comes to an end exactly if the passes over its loops do. -/
theorem converges_iff {t : Text} :
    Converges t ↔ ∃ n u, Settles loop? lowerLoop n (lowerConditionals t).1 u := by
  constructor
  · rintro ⟨-, hloop⟩
    obtain ⟨bound, hbound⟩ := exists_lowerLoops_eq (lowerConditionals t).1
    rw [lowered, hbound] at hloop
    obtain ⟨n, -, hsettles⟩ := exists_settles_of_pass?_eq_none hloop
    exact ⟨n, _, hsettles⟩
  · rintro ⟨n, u, hsettles⟩
    obtain ⟨_, _, hconditionals⟩ := settles_lowerConditionals t
    have hnone : pass? loop? lowerLoop (settle loop? lowerLoop n (lowerConditionals t).1).1 = none := by
      rw [hsettles.settle_eq (le_refl n)]
      exact hsettles.pass?_eq_none
    refine ⟨hconditionals.pass?_eq_none, ?_⟩
    rw [lowered, lowerLoops_eq hnone]
    exact hnone

/-- **Convergence.** Lowering a text comes to an end if no reference is left when the loops' turn
comes. -/
theorem converges_of_not_mem {t : Text} (h : '&' ∉ (lowerConditionals t).1) : Converges t := by
  obtain ⟨n, _, hloops⟩ := settles_lowerLoops h
  exact converges_iff.mpr ⟨n, _, hloops⟩

end Stencil.Template
