import Mathlib.Data.List.Dedup
import Stencil.Proofs.Text.Scanning
import Stencil.Template.Substitution

/-!
# Markers to references

Tokens are replaced one after the other in the whole text, longer ones first. A text that consists of
plain texts and tokens is `assembled` from them, and every stage of the replacement is assembled from the same
parts with other images of the tokens. One replacement takes a stage to the next (`replaceWord_assembled`):
the token cannot start in a plain text or in another token, since where it comes in the text at all it
lies within a token, which is not shorter; it cannot reach into a reference, which begins with a brace;
and it cannot lie in a path, which has no beginning of a token.

So tokens that are parts of one another do not spoil each other: **every token in the text is replaced
by the reference to its own path, all else stays, and nothing is left that looks like a token**
(`substitute_assembled`, `substitute_markup`).
-/

namespace Stencil.Template

open Text

/-- Without the beginning of tokens there is nothing that looks like one. -/
theorem removeLeftovers_of_absent {shape : Marker.Shape} {strict : Bool} {t : Text}
    (h : ¬ shape.lead.toList <:+: t) : removeLeftovers shape strict t = pure t := by
  have hnone : ∀ s, s <:+ t → tokenLike? shape s = none := by
    intro s hs
    have hlead : after? shape.lead.toList s = none :=
      after?_eq_none_iff.mpr fun hp => h (List.infix_iff_prefix_suffix.mpr ⟨s, hp, hs⟩)
    simp [tokenLike?, hlead]
  have hfind : findAll (tokenLike? shape) t = [] := by
    have hpieces := pieces_append_of_none (m := tokenLike? shape) (u := t) (v := [])
      (everyTail_of_suffix fun s hs => by rw [List.append_nil]; exact hnone s hs)
    have hend : pieces (tokenLike? shape) [] = [] := by
      simp [pieces, piecesFrom, hnone [] List.nil_suffix]
    rw [List.append_nil, hend, List.append_nil] at hpieces
    rw [findAll, hpieces, filterMap_found?_char]
  rw [removeLeftovers, hfind, replaceEach_of_none _ hnone]
  rfl

/-! ### Texts with tokens -/

/-- A token in a text with the plain text before it, and the path that it stands for. -/
structure Placed where
  /-- The plain text. -/
  plain : Text
  /-- The token. -/
  token : String
  /-- The path. -/
  path : String

namespace Placed

/-- The token as a word of the text. -/
def word (s : Placed) : Text := s.token.toList

/-- The reference that is to stand for the token. -/
def reference (s : Placed) : Text := Template.reference s.path

/-- What stands for the token when some tokens are replaced. -/
def image (done : List String) (s : Placed) : Text := if s.token ∈ done then s.reference else s.word

end Placed

/-- The text of plain texts with images of tokens between them. -/
def assembled (image : Placed → Text) : List Placed → (last : Text) → Text
  | [], last => last
  | s :: rest, last => s.plain ++ (image s ++ assembled image rest last)

/-- That `n` characters of a text, from a position on, lie within one of its tokens. -/
def Within : List Placed → (position n : ℕ) → Prop
  | [], _, _ => False
  | s :: rest, i, n =>
    (s.plain.length ≤ i ∧ i + n ≤ s.plain.length + s.word.length) ∨
      (s.plain.length + s.word.length ≤ i ∧ Within rest (i - (s.plain.length + s.word.length)) n)

instance Within.decidable : (segments : List Placed) → (i n : ℕ) → Decidable (Within segments i n)
  | [], _, _ => inferInstanceAs (Decidable False)
  | s :: rest, i, n =>
    have := Within.decidable rest (i - (s.plain.length + s.word.length)) n
    inferInstanceAs (Decidable (_ ∨ _))

/-- That a word comes in a text only within the tokens. -/
def OnlyWithin (word : Text) (segments : List Placed) (last : Text) : Prop :=
  ∀ i, word <+: (assembled Placed.word segments last).drop i → Within segments i word.length

/-- A word that is no part of a reference, unless of its path: it has no brace, and begins like a
token. -/
structure IsTokenWord (lead : Text) (word : Text) : Prop where
  starts : lead <+: word
  opening_not_mem : '\x7b' ∉ word
  closing_not_mem : '\x7d' ∉ word

theorem joined_congr {image image' : Placed → Text} {segments : List Placed} (last : Text)
    (h : ∀ s ∈ segments, image s = image' s) :
    assembled image segments last = assembled image' segments last := by
  induction segments with
  | nil => rfl
  | cons s rest ih => rw [assembled, assembled, h s (by simp), ih fun r hr => h r (by simp [hr])]

/-- Where a word comes in a text is looked for at the positions of the text. -/
theorem onlyWithin_of_forall_lt {word : Text} {segments : List Placed} {last : Text} (hword : word ≠ [])
    (h : ∀ i < (assembled Placed.word segments last).length,
      word <+: (assembled Placed.word segments last).drop i → Within segments i word.length) :
    OnlyWithin word segments last := by
  intro i hi
  refine h i ?_ hi
  by_contra hlong
  rw [List.drop_eq_nil_of_le (by omega)] at hi
  exact hword (List.prefix_nil.mp hi)

theorem infix_assembled {image : Placed → Text} {segments : List Placed} {s : Placed} (hs : s ∈ segments)
    (last : Text) : image s <:+: assembled image segments last := by
  induction segments with
  | nil => simp at hs
  | cons r rest ih =>
    rw [assembled]
    rcases List.mem_cons.mp hs with rfl | hs
    · exact ⟨s.plain, assembled image rest last, by rw [List.append_assoc]⟩
    · exact (ih hs).trans ((List.suffix_append _ _).trans (List.suffix_append _ _)).isInfix

theorem OnlyWithin.of_cons {word : Text} {s : Placed} {rest : List Placed} {last : Text}
    (h : OnlyWithin word (s :: rest) last) (hword : word ≠ []) : OnlyWithin word rest last := by
  intro i hi
  have hdrop : (assembled Placed.word (s :: rest) last).drop (s.plain.length + s.word.length + i) =
      (assembled Placed.word rest last).drop i := by
    rw [assembled, ← List.append_assoc, ← List.length_append, List.drop_length_add_append]
  rcases h _ (hdrop ▸ hi) with ⟨-, hend⟩ | ⟨-, hrest⟩
  · have := List.length_pos_iff.mpr hword
    omega
  · rwa [Nat.add_sub_cancel_left] at hrest

/-- The tokens of a text that are replaced already make no difference to a word without braces. -/
theorem prefix_of_prefix_assembled {word : Text} (hbrace : '\x7b' ∉ word) {done : List String}
    {segments : List Placed} {last u : Text}
    (h : word <+: u ++ assembled (Placed.image done) segments last) :
    word <+: u ++ assembled Placed.word segments last := by
  induction segments generalizing u with
  | nil => exact h
  | cons s rest ih =>
    rw [assembled, ← List.append_assoc] at h ⊢
    by_cases hdone : s.token ∈ done
    · rw [Placed.image, if_pos hdone] at h
      exact (prefix_of_prefix_append_cons h hbrace).trans (List.prefix_append _ _)
    · rw [Placed.image, if_neg hdone, ← List.append_assoc] at h
      rw [← List.append_assoc]
      exact ih h

/-! ### One token -/

section OneToken

variable {lead word : Text} {done : List String} {s : Placed} {rest segments : List Placed} {last : Text}

/-- The word does not start in the plain text before a token. -/
private theorem everyTail_plain (hword : IsTokenWord lead word)
    (hwithin : OnlyWithin word (s :: rest) last) :
    EveryTail (fun r => ¬ word <+: r ++ (s.image done ++ assembled (Placed.image done) rest last))
      s.plain := by
  refine everyTail_of_split fun before c after hsplit h => ?_
  have horiginal : word <+: (c :: after) ++ (s.word ++ assembled Placed.word rest last) := by
    have hjoined : assembled (Placed.image done) (⟨c :: after, s.token, s.path⟩ :: rest) last =
        (c :: after) ++ (s.image done ++ assembled (Placed.image done) rest last) := rfl
    rw [← hjoined, ← List.nil_append (assembled _ _ _)] at h
    exact prefix_of_prefix_assembled hword.opening_not_mem h
  have hdrop : (assembled Placed.word (s :: rest) last).drop before.length =
      (c :: after) ++ (s.word ++ assembled Placed.word rest last) := by
    rw [assembled, hsplit, List.append_assoc, List.drop_left]
  have hlength : before.length < s.plain.length := by simp [hsplit]
  rcases hwithin _ (hdrop ▸ horiginal) with ⟨hstart, -⟩ | ⟨hstart, -⟩ <;> omega

/-- The word does not start in the image of another token that is not longer. -/
private theorem everyTail_image (hword : IsTokenWord lead word) (hne : word ≠ [])
    (hwithin : OnlyWithin word (s :: rest) last) (hother : s.word ≠ word)
    (hlength : s.token ∉ done → s.word.length ≤ word.length) (hpath : ¬ lead <:+: s.path.toList) :
    EveryTail (fun r => ¬ word <+: r ++ assembled (Placed.image done) rest last) (s.image done) := by
  by_cases hdone : s.token ∈ done
  · rw [Placed.image, if_pos hdone, Placed.reference, Template.reference]
    have hopening {t : Text} : ¬ word <+: '\x7b' :: t := fun h =>
      hne (List.prefix_nil.mp (prefix_of_prefix_append_cons (u := []) h hword.opening_not_mem))
    have hclosing {t : Text} : ¬ word <+: '\x7d' :: t := fun h =>
      hne (List.prefix_nil.mp (prefix_of_prefix_append_cons (u := []) h hword.closing_not_mem))
    refine ⟨hopening, hopening, everyTail_append.mpr
      ⟨everyTail_of_suffix fun r hr h => ?_, hclosing, hclosing, trivial⟩⟩
    rw [List.append_assoc] at h
    have hinside := prefix_of_prefix_append_cons h hword.closing_not_mem
    exact hpath (hword.starts.isInfix.trans (hinside.isInfix.trans hr.isInfix))
  · rw [Placed.image, if_neg hdone]
    refine everyTail_of_split fun before c after hsplit h => ?_
    have horiginal := prefix_of_prefix_assembled hword.opening_not_mem h
    have hdrop : (assembled Placed.word (s :: rest) last).drop (s.plain.length + before.length) =
        (c :: after) ++ assembled Placed.word rest last := by
      rw [assembled, ← List.append_assoc, hsplit, ← List.append_assoc, List.append_assoc (_ ++ _),
        ← List.length_append, List.drop_left]
    have hsum : s.word.length = before.length + after.length + 1 := by simp [hsplit]; omega
    rcases hwithin _ (hdrop ▸ horiginal) with ⟨-, hend⟩ | ⟨hstart, -⟩
    · have hinside : word <+: c :: after :=
        List.prefix_of_prefix_length_le horiginal (List.prefix_append _ _) (by
          rw [List.length_cons]
          omega)
      have hall : word <:+: s.word := hsplit ▸ hinside.isInfix.trans (List.suffix_append _ _).isInfix
      exact hother (hall.eq_of_length_le (hlength hdone)).symm
    · omega

/-- The word does not start in the plain text at the end. -/
private theorem everyTail_last (hwithin : OnlyWithin word [] last) :
    EveryTail (fun r => ¬ word <+: r) last :=
  everyTail_of_split fun before c after hsplit h => by
    have hdrop : (assembled Placed.word [] last).drop before.length = c :: after := by
      rw [assembled, hsplit, List.drop_left]
    exact hwithin _ (hdrop ▸ h)

variable {token path : String} (hword : IsTokenWord lead token.toList) (hne : token.toList ≠ [])
  (hwithin : OnlyWithin token.toList segments last)
  (hlength : ∀ s ∈ segments, s.token ∉ done → s.word.length ≤ token.toList.length)
  (hplain : ∀ s ∈ segments, ¬ lead <:+: s.path.toList)

include hword hne hwithin hlength hplain

/-- **One token.** To replace a token is to replace it where it stands between plain texts. -/
theorem replaceWord_assembled (hpath : ∀ s ∈ segments, s.token = token → s.path = path)
    (hnew : token ∉ done) :
    replaceWord token.toList (reference path) (assembled (Placed.image done) segments last) =
      assembled (Placed.image (token :: done)) segments last := by
  induction segments with
  | nil => exact replaceWord_of_none _ hne (everyTail_last hwithin)
  | cons s rest ih =>
    have ih := ih (hwithin.of_cons hne) (fun r hr => hlength r (by simp [hr]))
      (fun r hr => hplain r (by simp [hr])) fun r hr => hpath r (by simp [hr])
    rw [assembled, assembled, replaceWord_append_of_none _ (everyTail_plain hword hwithin)]
    congr 1
    by_cases hsame : s.token = token
    · have hbefore : s.image done = token.toList := by
        rw [Placed.image, if_neg (hsame ▸ hnew), Placed.word, hsame]
      have hafter : s.image (token :: done) = reference path := by
        rw [Placed.image, if_pos (by simp [hsame]), Placed.reference, hpath s (by simp) hsame]
      rw [hbefore, hafter, replaceWord_append_self _ hne, ih]
    · have hother : s.word ≠ token.toList := fun h => hsame (String.toList_injective h)
      have hkeep : s.image (token :: done) = s.image done := by
        simp [Placed.image, hsame]
      rw [hkeep, replaceWord_append_of_none _ (everyTail_image hword hne hwithin hother
        (hlength s (by simp)) (hplain s (by simp))), ih]

/-- A token that does not stand between plain texts does not come in the text. -/
theorem not_infix_assembled (habsent : ∀ s ∈ segments, s.token ≠ token) :
    ¬ token.toList <:+: assembled (Placed.image done) segments last := by
  refine not_infix_of_everyTail hne ?_
  induction segments with
  | nil => exact everyTail_last hwithin
  | cons s rest ih =>
    have ih := ih (hwithin.of_cons hne) (fun r hr => hlength r (by simp [hr]))
      (fun r hr => hplain r (by simp [hr])) fun r hr => habsent r (by simp [hr])
    have hother : s.word ≠ token.toList := fun h => habsent s (by simp) (String.toList_injective h)
    exact everyTail_append.mpr ⟨everyTail_plain hword hwithin, everyTail_append.mpr
      ⟨everyTail_image hword hne hwithin hother (hlength s (by simp)) (hplain s (by simp)), ih⟩⟩

end OneToken

/-! ### All tokens -/

/-- The text that one replacement gives, and what is written down. -/
theorem substituteToken_assembled {lead : Text} {done : List String} {segments : List Placed} {last : Text}
    {token path : String} (hword : IsTokenWord lead token.toList) (hne : token.toList ≠ [])
    (hwithin : OnlyWithin token.toList segments last)
    (hlength : ∀ s ∈ segments, s.token ∉ done → s.word.length ≤ token.toList.length)
    (hplain : ∀ s ∈ segments, ¬ lead <:+: s.path.toList)
    (hpath : ∀ s ∈ segments, s.token = token → s.path = path) (hnew : token ∉ done) (strict : Bool)
    (journal : Journal) :
    substituteToken strict (assembled (Placed.image done) segments last) token (some path) journal =
      (.ok (assembled (Placed.image (token :: done)) segments last),
        journal ++ if token ∈ segments.map Placed.token then [.substituted token] else []) := by
  have hreplace := replaceWord_assembled hword hne hwithin hlength hplain hpath hnew
  by_cases hmem : token ∈ segments.map Placed.token
  · have hhas : has token.toList (assembled (Placed.image done) segments last) = true := by
      refine has_iff.mpr ?_
      obtain ⟨s, hs, rfl⟩ := List.mem_map.mp hmem
      have himage : s.image done = s.token.toList := if_neg hnew
      exact himage ▸ infix_assembled hs last
    rw [if_pos hmem, ← hreplace]
    simp only [substituteToken, hhas, if_true]
    rfl
  · have habsent := not_infix_assembled hword hne hwithin hlength hplain
      fun s hs h => hmem (h ▸ List.mem_map_of_mem hs)
    have hhas : has token.toList (assembled (Placed.image done) segments last) = false := by
      rwa [← Bool.not_eq_true, has_iff]
    have hkeep : assembled (Placed.image (token :: done)) segments last =
        assembled (Placed.image done) segments last := by
      refine joined_congr last fun s hs => ?_
      have hother : s.token ≠ token := fun h => hmem (h ▸ List.mem_map_of_mem hs)
      simp [Placed.image, hother]
    rw [if_neg hmem, List.append_nil, hkeep]
    simp only [substituteToken, hhas]
    rfl

/-- What a table of tokens has to be for the tokens not to spoil each other: every token is there once,
and is a word that is no part of a reference. -/
structure IsTable (lead : Text) (tokens : List (String × String)) : Prop where
  nodup : (tokens.map Prod.fst).Nodup
  isTokenWord : ∀ entry ∈ tokens, IsTokenWord lead entry.1.toList

/-- What a text with tokens of a table has to be: each token is there with its path, the beginning of a
token comes in no plain text and no path, and a token of the table comes only within the tokens of the
text. -/
structure IsMarked (lead : Text) (tokens : List (String × String)) (segments : List Placed)
    (last : Text) : Prop where
  bound : ∀ s ∈ segments, (s.token, s.path) ∈ tokens
  path : ∀ s ∈ segments, ¬ lead <:+: s.path.toList
  plain : ∀ s ∈ segments, ¬ lead <:+: s.plain
  plain_last : ¬ lead <:+: last
  onlyWithin : ∀ entry ∈ tokens, OnlyWithin entry.1.toList segments last

/-- A table as substitution takes it, with a path for every token. -/
def bound (tokens : List (String × String)) : List (String × Option String) :=
  tokens.map fun (token, path) => (token, some path)

section AllTokens

variable {lead : Text} {tokens : List (String × String)} {segments : List Placed} {last : Text}

theorem IsMarked.lead_ne_nil (h : IsMarked lead tokens segments last) : lead ≠ [] := by
  rintro rfl
  exact h.plain_last List.nil_infix

theorem IsTable.path_eq (htable : IsTable lead tokens) {token path path' : String}
    (h : (token, path) ∈ tokens) (h' : (token, path') ∈ tokens) : path = path' := by
  have hinj := List.inj_on_of_nodup_map htable.nodup h h' rfl
  exact congrArg Prod.snd hinj

/-- The tokens that are found in a text, in the order of a table. -/
def found (segments : List Placed) (tokens : List (String × String)) : List String :=
  (tokens.map Prod.fst).filter (· ∈ segments.map Placed.token)

/-- **Token by token.** When the tokens that are still to be replaced go from the longest to the
shortest, each one is replaced where it stands, and nowhere else. -/
theorem substituteEach_assembled (htable : IsTable lead tokens)
    (hmarked : IsMarked lead tokens segments last) (strict : Bool) {todo : List (String × String)}
    {done : List String} (htodo : todo ⊆ tokens) (hnodup : (todo.map Prod.fst).Nodup)
    (hsorted : todo.Pairwise fun a b => b.1.length ≤ a.1.length)
    (hdone : ∀ entry ∈ todo, entry.1 ∉ done)
    (hall : ∀ s ∈ segments, s.token ∈ done ∨ (s.token, s.path) ∈ todo) (journal : Journal) :
    substituteEach strict (bound todo) (assembled (Placed.image done) segments last) journal =
      (.ok (assembled Placed.reference segments last),
        journal ++ (found segments todo).map .substituted) := by
  induction todo generalizing done journal with
  | nil =>
    have hreplaced : assembled (Placed.image done) segments last =
        assembled Placed.reference segments last :=
      joined_congr last fun s hs => if_pos ((hall s hs).resolve_right (by simp))
    rw [hreplaced]
    simp only [found, bound, List.map_nil, List.filter_nil, List.append_nil, substituteEach]
    rfl
  | cons entry rest ih =>
    obtain ⟨token, path⟩ := entry
    have hmem : (token, path) ∈ tokens := htodo (by simp)
    obtain ⟨hlonger, hsorted⟩ := List.pairwise_cons.mp hsorted
    obtain ⟨hnot, hnodup⟩ := List.nodup_cons.mp hnodup
    have hword := htable.isTokenWord _ hmem
    have hne : token.toList ≠ [] := fun h =>
      hmarked.lead_ne_nil (List.prefix_nil.mp (h ▸ hword.starts))
    -- the token is the longest of those that are still to be replaced
    have hlength : ∀ s ∈ segments, s.token ∉ done → s.word.length ≤ token.toList.length := by
      intro s hs hnew
      have hmem := (hall s hs).resolve_left hnew
      rw [Placed.word, String.length_toList, String.length_toList]
      rcases List.mem_cons.mp hmem with heq | hmem
      · rw [show s.token = token from congrArg Prod.fst heq]
      · exact hlonger _ hmem
    have hone := substituteToken_assembled hword hne (hmarked.onlyWithin _ hmem) hlength
      hmarked.path
      (fun s hs hsame => htable.path_eq (hmarked.bound s hs) (by rwa [show s.token = token from hsame]))
      (hdone _ (by simp)) strict journal
    have hfresh : ∀ e ∈ rest, e.1 ∉ token :: done := fun e he => by
      rw [List.mem_cons, not_or]
      exact ⟨fun h => hnot (List.mem_map.mpr ⟨e, he, h⟩), hdone e (List.mem_cons_of_mem _ he)⟩
    have hremain : ∀ s ∈ segments, s.token ∈ token :: done ∨ (s.token, s.path) ∈ rest :=
      fun s hs => by
        rcases hall s hs with h | h
        · exact .inl (List.mem_cons_of_mem _ h)
        · rcases List.mem_cons.mp h with heq | h
          · exact .inl (by simp [show s.token = token from congrArg Prod.fst heq])
          · exact .inr h
    have hrest := ih (fun e he => htodo (List.mem_cons_of_mem _ he)) hnodup hsorted hfresh hremain
    rw [bound, List.map_cons, substituteEach, Work.bind_of_ok hone, ← bound, hrest]
    by_cases hfound : token ∈ segments.map Placed.token
    · simp only [found, List.map_cons, List.filter_cons, hfound, decide_true, if_true,
        List.append_assoc, List.singleton_append]
    · simp only [found, List.map_cons, List.filter_cons, hfound, decide_false, if_false,
        List.append_nil, Bool.false_eq_true]

/-- A text in which the tokens are replaced has no beginning of a token. -/
theorem lead_not_infix_assembled (hopening : '\x7b' ∉ lead) (hclosing : '\x7d' ∉ lead)
    (hplain : ∀ s ∈ segments, ¬ lead <:+: s.plain) (hlast : ¬ lead <:+: last)
    (hpath : ∀ s ∈ segments, ¬ lead <:+: s.path.toList) :
    ¬ lead <:+: assembled Placed.reference segments last := by
  induction segments with
  | nil => exact hlast
  | cons s rest ih =>
    have ih := ih (fun r hr => hplain r (by simp [hr])) fun r hr => hpath r (by simp [hr])
    have hnil : ¬ lead <:+: [] := fun h => hlast (h.trans List.nil_infix)
    intro h
    rw [assembled, Placed.reference, Template.reference] at h
    have h := (infix_of_infix_append_cons h hopening).resolve_left (hplain s (by simp))
    have h := (infix_of_infix_append_cons (u := []) h hopening).resolve_left hnil
    change lead <:+: (s.path.toList ++ ['\x7d', '\x7d']) ++ _ at h
    rw [List.append_assoc] at h
    have h := (infix_of_infix_append_cons h hclosing).resolve_left (hpath s (by simp))
    exact ih ((infix_of_infix_append_cons (u := []) h hclosing).resolve_left hnil)

/-- **All tokens.** Each token of the text is replaced by the reference to its path, and written down
once. -/
theorem substitute_assembled {shape : Marker.Shape} (htable : IsTable shape.lead.toList tokens)
    (hmarked : IsMarked shape.lead.toList tokens segments last)
    (hopening : '\x7b' ∉ shape.lead.toList) (hclosing : '\x7d' ∉ shape.lead.toList) (strict : Bool)
    (journal : Journal) :
    ∃ names : List String, names.Nodup ∧ (∀ t, t ∈ names ↔ t ∈ segments.map Placed.token) ∧
      substitute shape strict (bound tokens) (assembled Placed.word segments last) journal =
        (.ok (assembled Placed.reference segments last), journal ++ names.map .substituted) := by
  let longer (a b : String × String) : Bool := decide (b.1.length ≤ a.1.length)
  have hperm : (tokens.mergeSort longer).Perm tokens := List.mergeSort_perm _ _
  have hsorted : (tokens.mergeSort longer).Pairwise fun a b => b.1.length ≤ a.1.length := by
    have hpairwise : (tokens.mergeSort longer).Pairwise fun a b => longer a b :=
      List.pairwise_mergeSort
        (fun a b c hab hbc => by simp only [longer, decide_eq_true_eq] at *; omega)
        (fun a b => by simp only [longer, Bool.or_eq_true, decide_eq_true_eq]; omega) tokens
    exact hpairwise.imp fun h => of_decide_eq_true h
  have hnodup : ((tokens.mergeSort longer).map Prod.fst).Nodup :=
    (hperm.map Prod.fst).nodup_iff.mpr htable.nodup
  have hlength : byLength (bound tokens) = bound (tokens.mergeSort longer) :=
    (List.map_mergeSort (l := tokens) (r := longer)
      (s := fun a b : String × Option String => decide (b.1.length ≤ a.1.length))
      (f := fun e => (e.1, some e.2)) fun _ _ _ _ => rfl).symm
  have hwords : assembled Placed.word segments last = assembled (Placed.image []) segments last :=
    joined_congr last fun s _ => rfl
  refine ⟨found segments (tokens.mergeSort longer), hnodup.filter _, fun t => ?_, ?_⟩
  · have hmem : t ∈ segments.map Placed.token → t ∈ (tokens.mergeSort longer).map Prod.fst := by
      intro h
      obtain ⟨s, hs, rfl⟩ := List.mem_map.mp h
      exact List.mem_map.mpr ⟨_, hperm.mem_iff.mpr (hmarked.bound s hs), rfl⟩
    rw [found, List.mem_filter, decide_eq_true_iff, and_iff_right_iff_imp]
    exact hmem
  · have hfresh : ∀ e ∈ tokens.mergeSort longer, e.1 ∉ ([] : List String) := by simp
    have heach := substituteEach_assembled htable hmarked strict hperm.subset hnodup hsorted hfresh
      (fun s hs => .inr (hperm.mem_iff.mpr (hmarked.bound s hs))) journal
    have hclean := lead_not_infix_assembled hopening hclosing hmarked.plain hmarked.plain_last
      hmarked.path
    rw [substitute, hlength, hwords, Work.bind_of_ok heach, removeLeftovers_of_absent hclean]
    rfl

/-- A token between two characters that no token has is in a marked text, if the beginning of a token
comes neither before nor behind it. -/
theorem isMarked_between {token path : String} {u v : Text} {c d : Char}
    (htable : IsTable lead tokens) (hmem : (token, path) ∈ tokens)
    (hends : ∀ entry ∈ tokens, c ∉ entry.1.toList ∧ d ∉ entry.1.toList)
    (hpath : ¬ lead <:+: path.toList) (hu : ¬ lead <:+: u) (hv : ¬ lead <:+: v) :
    IsMarked lead tokens [⟨u ++ [c], token, path⟩] (d :: v) := by
  have hlead := (htable.isTokenWord _ hmem).starts
  have hnil : ¬ lead <:+: [] := fun h => hu (h.trans List.nil_infix)
  have hc : c ∉ lead := fun h => (hends _ hmem).1 (hlead.subset h)
  have hd : d ∉ lead := fun h => (hends _ hmem).2 (hlead.subset h)
  refine ⟨by simpa using hmem, by simpa using hpath, ?_, fun h => ?_, fun entry hentry i hi => ?_⟩
  · simp only [List.forall_mem_singleton]
    exact fun h => (infix_of_infix_append_cons h hc).elim hu hnil
  · exact (infix_of_infix_append_cons (u := []) h hd).elim hnil hv
  · obtain ⟨hce, hde⟩ := hends entry hentry
    have hstart := (htable.isTokenWord _ hentry).starts.isInfix
    have htext : assembled Placed.word [⟨u ++ [c], token, path⟩] (d :: v) =
        u ++ c :: (token.toList ++ d :: v) := by simp [assembled, Placed.word]
    rw [htext] at hi
    refine .inl ?_
    rw [List.length_append, List.length_singleton]
    -- a token at `i` starts in `u`, in the token or in `v`, and `c` and `d` end it there
    rcases Nat.lt_or_ge u.length i with hlong | hshort
    · obtain ⟨k, rfl⟩ := Nat.exists_eq_add_of_le hlong
      have hdrop : (u ++ c :: (token.toList ++ d :: v)).drop (u.length + 1 + k) =
          token.toList.drop k ++ (d :: v).drop (k - token.toList.length) := by
        rw [Nat.add_assoc, Nat.add_comm 1, List.drop_length_add_append, List.drop_succ_cons,
          List.drop_append]
      rw [hdrop] at hi
      rcases Nat.lt_or_ge token.toList.length k with hbehind | hinside
      · rw [List.drop_eq_nil_of_le hbehind.le, List.nil_append] at hi
        obtain ⟨j, hj⟩ := Nat.exists_eq_add_of_lt hbehind
        rw [hj, Nat.add_assoc, Nat.add_sub_cancel_left, List.drop_succ_cons] at hi
        exact absurd (hstart.trans (hi.isInfix.trans (List.drop_suffix j v).isInfix)) hv
      · rw [Nat.sub_eq_zero_of_le hinside, List.drop_zero] at hi
        have hlength := (prefix_of_prefix_append_cons hi hde).length_le
        rw [List.length_drop] at hlength
        simp only [Placed.word]
        omega
    · rw [List.drop_append_of_le_length hshort] at hi
      have hbefore := prefix_of_prefix_append_cons hi hce
      exact absurd (hstart.trans (hbefore.isInfix.trans (List.drop_suffix i u).isInfix)) hu

/-- **The only token.** A token between two characters that no token has is replaced by the reference
to its path, and nothing else in the text is changed. -/
theorem substitute_token {shape : Marker.Shape} {token path : String} {u v : Text} {c d : Char}
    (htable : IsTable shape.lead.toList tokens) (hmem : (token, path) ∈ tokens)
    (hends : ∀ entry ∈ tokens, c ∉ entry.1.toList ∧ d ∉ entry.1.toList)
    (hpath : ¬ shape.lead.toList <:+: path.toList) (hu : ¬ shape.lead.toList <:+: u)
    (hv : ¬ shape.lead.toList <:+: v) (strict : Bool) (journal : Journal) :
    substitute shape strict (bound tokens) (u ++ c :: (token.toList ++ d :: v)) journal =
      (.ok (u ++ c :: (reference path ++ d :: v)), journal ++ [.substituted token]) := by
  have hmarked := isMarked_between htable hmem hends hpath hu hv
  have hword := htable.isTokenWord _ hmem
  obtain ⟨names, hnodup, hnames, hsubstitute⟩ := substitute_assembled htable hmarked
    (fun h => hword.opening_not_mem (hword.starts.subset h))
    (fun h => hword.closing_not_mem (hword.starts.subset h)) strict journal
  have hsingle : names = [token] :=
    List.perm_singleton.mp <| (List.perm_ext_iff_of_nodup hnodup (List.nodup_singleton _)).mpr
      fun t => by simpa using hnames t
  simpa [assembled, hsingle, Placed.word, Placed.reference] using hsubstitute

end AllTokens

/-! ### Tokens of a shape -/

/-- A table of different tokens of a shape: they begin and end alike, and are words. -/
structure IsShaped (shape : Marker.Shape) (tokens : List (String × String)) : Prop where
  isTokenChar_of_mem : ∀ c ∈ shape.lead.toList ++ shape.tail.toList, isTokenChar c = true
  nodup : (tokens.map Prod.fst).Nodup
  token : ∀ entry ∈ tokens, ∃ body : Text, (∀ c ∈ body, isTokenChar c = true) ∧
    entry.1.toList = shape.lead.toList ++ body ++ shape.tail.toList

theorem IsShaped.isTable {shape : Marker.Shape} {tokens : List (String × String)}
    (h : IsShaped shape tokens) : IsTable shape.lead.toList tokens := by
  refine ⟨h.nodup, fun entry hentry => ?_⟩
  obtain ⟨body, hbody, htoken⟩ := h.token entry hentry
  have hchars : ∀ c ∈ entry.1.toList, isTokenChar c = true := by
    intro c hc
    rw [htoken, List.append_assoc, List.mem_append, List.mem_append] at hc
    rcases hc with hc | hc | hc
    · exact h.isTokenChar_of_mem c (by simp [hc])
    · exact hbody c hc
    · exact h.isTokenChar_of_mem c (by simp [hc])
  refine ⟨by rw [htoken, List.append_assoc]; exact List.prefix_append _ _, fun hmem => ?_,
    fun hmem => ?_⟩
  · exact absurd (hchars _ hmem) (by decide)
  · exact absurd (hchars _ hmem) (by decide)

/-- Tokens that are replaced count once each, and nothing else in the report on them. -/
private theorem summarize_substituted (markers : Marker.Registry) (journal : Journal)
    (names : List String) :
    (summarize markers (journal ++ names.map .substituted)).substituted =
        (summarize markers journal).substituted + names.length ∧
      unresolvedTokens (journal ++ names.map .substituted) = unresolvedTokens journal := by
  induction names generalizing journal with
  | nil => simp
  | cons name rest ih =>
    have hsplit : journal ++ (name :: rest).map .substituted =
        (journal ++ [.substituted name]) ++ rest.map .substituted := by simp
    rw [hsplit]
    obtain ⟨hcount, hunresolved⟩ := ih (journal ++ [.substituted name])
    rw [hcount, hunresolved]
    simp [summarize, unresolvedTokens]
    omega

/-- **Substitution.** In a text of plain texts without the beginning of a token and of bound tokens,
where bound tokens come only within these, every token is replaced by the reference to its own path and
every plain text is kept, if no path has the beginning of a token. No token counts as unresolved,
whether substitution is strict or not, and the report counts every different token of the text
once. -/
theorem substitute_markup {shape : Marker.Shape} {tokens : List (String × String)}
    {segments : List Placed} {last : Text} (hshaped : IsShaped shape tokens)
    (hmarked : IsMarked shape.lead.toList tokens segments last) (strict : Bool) (journal : Journal) :
    ∃ journal', substitute shape strict (bound tokens) (assembled Placed.word segments last) journal =
        (.ok (assembled Placed.reference segments last), journal') ∧
      unresolvedTokens journal' = unresolvedTokens journal ∧
      ∀ markers, (summarize markers journal').substituted =
        (summarize markers journal).substituted + (segments.map Placed.token).dedup.length := by
  have hbrace : ∀ {c : Char}, isTokenChar c = false → c ∉ shape.lead.toList := fun hc hmem => by
    simp [hshaped.isTokenChar_of_mem _ (List.mem_append_left _ hmem)] at hc
  obtain ⟨names, hnodup, hnames, hsubstitute⟩ := substitute_assembled hshaped.isTable hmarked
    (hbrace (by decide)) (hbrace (by decide)) strict journal
  have hlength : names.length = (segments.map Placed.token).dedup.length :=
    ((List.perm_ext_iff_of_nodup hnodup (List.nodup_dedup _)).mpr fun t => by
      rw [hnames, List.mem_dedup]).length_eq
  refine ⟨_, hsubstitute, (summarize_substituted {} journal names).2, fun markers => ?_⟩
  rw [(summarize_substituted markers journal names).1, hlength]

/-- Tokens of which one begins like the other. -/
def nestedTokens : List (String × String) := [("P_a_", "a"), ("P_a_b_", "a.b"), ("P_c_", "c")]

/-- A text with three tokens, two of them side by side. -/
def nestedSegments : List Placed :=
  [⟨"<p>".toList, "P_a_b_", "a.b"⟩, ⟨[], "P_a_", "a"⟩, ⟨" and ".toList, "P_a_b_", "a.b"⟩]

/-- A token is not taken for a part of a longer one. -/
theorem substitute_nested :
    IsShaped ⟨"P_", "_"⟩ nestedTokens ∧ IsMarked "P_".toList nestedTokens nestedSegments "</p>".toList ∧
      ∃ journal, substitute ⟨"P_", "_"⟩ true (bound nestedTokens)
          "<p>P_a_b_P_a_ and P_a_b_</p>".toList [] =
        (.ok "<p>\x7b\x7ba.b\x7d\x7d\x7b\x7ba\x7d\x7d and \x7b\x7ba.b\x7d\x7d</p>".toList, journal) ∧
      ∀ markers, (summarize markers journal).substituted = 2 := by
  have hshaped : IsShaped ⟨"P_", "_"⟩ nestedTokens := by
    refine ⟨by decide, by decide, ?_⟩
    simp only [nestedTokens, List.forall_mem_cons, List.not_mem_nil, false_implies, implies_true,
      and_true]
    exact ⟨⟨['a'], by decide, by decide⟩, ⟨['a', '_', 'b'], by decide, by decide⟩,
      ⟨['c'], by decide, by decide⟩⟩
  have hmarked : IsMarked "P_".toList nestedTokens nestedSegments "</p>".toList := by
    refine ⟨by decide, by decide, by decide, by decide, ?_⟩
    simp only [nestedTokens, List.forall_mem_cons, List.not_mem_nil, false_implies, implies_true,
      and_true]
    exact ⟨onlyWithin_of_forall_lt (by decide) (by decide),
      onlyWithin_of_forall_lt (by decide) (by decide), onlyWithin_of_forall_lt (by decide) (by decide)⟩
  obtain ⟨journal, hsubstitute, -, hcount⟩ := substitute_markup hshaped hmarked true []
  exact ⟨hshaped, hmarked, journal, hsubstitute, hcount⟩

end Stencil.Template
