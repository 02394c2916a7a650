import Mathlib.Data.List.Infix
import Stencil.Text.Basic

/-!
# Scanning a text in parts

What a matcher finds in a text that is put together of parts. Two facts carry everything that is said
about scanned texts later: a part in which no occurrence starts is left alone
(`pieces_append_of_none`), and an occurrence at the front is taken as a whole
(`pieces_append_of_some`). That no occurrence starts in `u` is said about all tails of `u` together
with the text behind it, so that an occurrence that begins in `u` and ends behind it is covered.
-/

namespace Stencil.Text

section Members

-- These instances go first: another one for statements about characters would try every character.

variable {α : Type} (p : α → Prop) [DecidablePred p]

/-- What is to hold of every member of a list is decided member by member. -/
instance (priority := 2000) decidableForallMem (l : List α) : Decidable (∀ a ∈ l, p a) :=
  List.decidableBAll p l

/-- What is to hold of the value of an option is decided by looking at it. -/
instance (priority := 2000) decidableForallMemOption (o : Option α) : Decidable (∀ a ∈ o, p a) :=
  Option.decidableForallMem o

/-- What is to hold of some value of an option is decided by looking at it. -/
instance (priority := 2000) decidableExistsMemOption (o : Option α) : Decidable (∃ a ∈ o, p a) :=
  Option.decidableExistsMem o

end Members

/-! ### Tails -/

/-- **Every tail** of a text, the text itself included and the empty one excluded, has a property. -/
def EveryTail (p : Text → Prop) : Text → Prop
  | [] => True
  | c :: cs => p (c :: cs) ∧ EveryTail p cs

@[simp] theorem everyTail_nil (p : Text → Prop) : EveryTail p [] := trivial

@[simp] theorem everyTail_cons {p : Text → Prop} {c : Char} {cs : Text} :
    EveryTail p (c :: cs) ↔ p (c :: cs) ∧ EveryTail p cs := Iff.rfl

theorem EveryTail.imp {p q : Text → Prop} {u : Text} (h : EveryTail p u) (hpq : ∀ s, p s → q s) :
    EveryTail q u := by
  induction u with
  | nil => trivial
  | cons c cs ih => exact ⟨hpq _ h.1, ih h.2⟩

theorem everyTail_append {p : Text → Prop} {u v : Text} :
    EveryTail p (u ++ v) ↔ EveryTail (fun s => p (s ++ v)) u ∧ EveryTail p v := by
  induction u with
  | nil => simp
  | cons c cs ih => simp [ih, and_assoc]

/-- What depends on the first character only holds of every tail if it holds of every character. -/
theorem everyTail_of_forall_mem {p : Text → Prop} {u : Text}
    (h : ∀ c ∈ u, ∀ s, p (c :: s)) : EveryTail p u := by
  induction u with
  | nil => trivial
  | cons c cs ih => exact ⟨h c (by simp) cs, ih fun d hd => h d (by simp [hd])⟩

/-- What holds of all suffixes of a text holds of every tail. -/
theorem everyTail_of_suffix {p : Text → Prop} {u : Text} (h : ∀ s, s <:+ u → p s) :
    EveryTail p u := by
  induction u with
  | nil => trivial
  | cons c cs ih =>
    exact ⟨h _ (List.suffix_refl _), ih fun s hs => h s (hs.trans (List.suffix_cons c cs))⟩

/-- What holds wherever a text is cut before a character holds of every tail. -/
theorem everyTail_of_split {p : Text → Prop} {u : Text}
    (h : ∀ before c after, u = before ++ c :: after → p (c :: after)) : EveryTail p u := by
  induction u with
  | nil => trivial
  | cons c cs ih =>
    refine ⟨h [] c cs rfl, ih fun before d after hsplit => ?_⟩
    exact h (c :: before) d after (by rw [hsplit, List.cons_append])

theorem EveryTail.of_suffix {p : Text → Prop} {s u : Text} (h : EveryTail p u) (hs : s <:+ u)
    (hne : s ≠ []) : p s := by
  induction u with
  | nil => exact absurd (List.suffix_nil.mp hs) hne
  | cons c cs ih =>
    rcases List.suffix_cons_iff.mp hs with rfl | hs
    · exact h.1
    · exact ih h.2 hs

/-! ### Words at the front -/

theorem after?_eq_none_iff {word t : Text} : after? word t = none ↔ ¬ word <+: t := by
  constructor
  · rintro h ⟨rest, rfl⟩
    simp [after?_append] at h
  · intro h
    cases hw : after? word t with
    | none => rfl
    | some rest => exact absurd ⟨rest, (eq_append_of_after? hw).symm⟩ h

theorem startsWith_iff {word t : Text} : startsWith word t = true ↔ word <+: t := by
  rw [startsWith, Option.isSome_iff_ne_none, ne_eq, after?_eq_none_iff, not_not]

theorem startsWith_eq_false_iff {word t : Text} : startsWith word t = false ↔ ¬ word <+: t := by
  rw [← startsWith_iff, Bool.not_eq_true]

/-- A word does not reach over a character that it does not have. -/
theorem prefix_of_prefix_append_cons {word u v : Text} {c : Char} (h : word <+: u ++ c :: v)
    (hc : c ∉ word) : word <+: u := by
  have hu : u ++ [c] <+: u ++ c :: v := ⟨v, by simp⟩
  rcases List.prefix_or_prefix_of_prefix h hu with h | h
  · rcases List.prefix_concat_iff.mp h with rfl | h
    · simp at hc
    · exact h
  · exact absurd (h.subset (by simp)) hc

/-- A text is cut at a word where the word comes for the first time. -/
theorem cut?_append {word u v : Text}
    (h : EveryTail (fun s => ¬ word <+: s ++ (word ++ v)) u) :
    cut? word (u ++ (word ++ v)) = some (u, v) := by
  induction u with
  | nil =>
    cases hw : word ++ v with
    | nil =>
      obtain ⟨rfl, rfl⟩ := List.append_eq_nil_iff.mp hw
      rfl
    | cons c cs =>
      rw [List.nil_append, cut?, ← hw, after?_append]
  | cons c cs ih =>
    have hc : after? word (c :: (cs ++ (word ++ v))) = none := after?_eq_none_iff.mpr h.1
    rw [List.cons_append, cut?, hc, ih h.2]
    rfl

/-- A text is cut nowhere at a word that does not come in it. -/
theorem cut?_eq_none {word u : Text} (hword : word ≠ [])
    (h : EveryTail (fun s => ¬ word <+: s) u) : cut? word u = none := by
  induction u with
  | nil => simp [cut?, hword]
  | cons c cs ih =>
    rw [cut?, after?_eq_none_iff.mpr h.1, ih h.2]
    rfl

/-- Before the place where a text is cut, the word does not start. -/
theorem everyTail_of_cut? {word t before rest : Text} (h : cut? word t = some (before, rest)) :
    EveryTail (fun s => ¬ word <+: s ++ (word ++ rest)) before := by
  induction t generalizing before with
  | nil =>
    rw [cut?] at h
    split_ifs at h
    obtain ⟨rfl, -⟩ : [] = before ∧ [] = rest := by simpa using h
    trivial
  | cons c cs ih =>
    rw [cut?] at h
    split at h
    · obtain ⟨rfl, -⟩ : [] = before ∧ _ = rest := by simpa using h
      trivial
    · next hafter =>
      obtain ⟨⟨b, r⟩, hb, heq⟩ := Option.map_eq_some_iff.mp h
      obtain ⟨rfl, rfl⟩ : c :: b = before ∧ r = rest := by simpa using heq
      refine ⟨fun hp => after?_eq_none_iff.mp hafter ?_, ih hb⟩
      rw [eq_of_cut? hb, List.append_assoc]
      exact hp

/-! ### Words inside -/

theorem has_iff {word t : Text} : has word t = true ↔ word <:+: t := by
  rw [has, Option.isSome_iff_exists]
  constructor
  · rintro ⟨⟨before, rest⟩, h⟩
    exact ⟨before, rest, (eq_of_cut? h).symm⟩
  · intro h
    by_contra hnone
    simp only [not_exists, ← Option.eq_none_iff_forall_ne_some] at hnone
    induction t with
    | nil =>
      obtain rfl : word = [] := List.infix_nil.mp h
      simp [cut?] at hnone
    | cons c cs ih =>
      rw [cut?] at hnone
      split at hnone
      · cases hnone
      · next hc =>
        refine ih ((List.infix_cons_iff.mp h).resolve_left (after?_eq_none_iff.mp hc)) ?_
        exact Option.map_eq_none_iff.mp hnone

/-- A word does not come around a character that it does not have. -/
theorem infix_of_infix_append_cons {word u v : Text} {c : Char} (h : word <:+: u ++ c :: v)
    (hc : c ∉ word) : word <:+: u ∨ word <:+: v := by
  induction u with
  | nil =>
    rcases List.infix_cons_iff.mp h with h | h
    · obtain rfl := List.prefix_nil.mp (prefix_of_prefix_append_cons (u := []) h hc)
      exact .inl List.nil_infix
    · exact .inr h
  | cons d ds ih =>
    rcases List.infix_cons_iff.mp h with h | h
    · exact .inl (prefix_of_prefix_append_cons (u := d :: ds) h hc).isInfix
    · exact (ih h).imp_left List.infix_cons

/-- A word that ends in a character, and has it only there, ends with the first one of a text, or comes
behind it. -/
theorem suffix_or_infix_of_infix_append_cons {word u v : Text} {c : Char} (h : word ++ [c] <:+: u ++ c :: v)
    (hword : c ∉ word) (hu : c ∉ u) : word <:+ u ∨ word ++ [c] <:+: v := by
  obtain ⟨before, after, heq⟩ := h
  rw [List.append_assoc, List.append_assoc, List.singleton_append, ← List.append_assoc] at heq
  rcases List.append_eq_append_iff.mp heq with ⟨x, hx, hrest⟩ | ⟨x, hx, hrest⟩
  · -- the word ends with the text before the character, or has the character
    cases x with
    | nil => exact .inl ⟨before, by simpa using hx.symm⟩
    | cons d x =>
      obtain ⟨rfl, -⟩ := List.cons.inj hrest
      exact absurd (hx ▸ List.mem_append_right _ List.mem_cons_self) hu
  · cases x with
    | nil => exact .inl ⟨before, by simpa using hx⟩
    | cons d x =>
      obtain ⟨rfl, rfl⟩ := List.cons.inj hrest
      obtain ⟨y, -, hy⟩ | ⟨y, -, hy⟩ := List.append_eq_append_iff.mp hx
      · exact absurd (hy ▸ List.mem_append_right _ List.mem_cons_self) hword
      · cases y with
        | nil => exact absurd ((hy.trans (List.nil_append word)) ▸ List.mem_cons_self) hword
        | cons e y =>
          obtain ⟨-, rfl⟩ := List.cons.inj hy
          exact .inr ⟨y, after, by simp⟩

/-- No occurrence starts in a text that a word does not come in. -/
theorem everyTail_of_absent {word u : Text} (h : ¬ word <:+: u) :
    EveryTail (fun s => ¬ word <+: s) u :=
  everyTail_of_suffix fun s hs hp => h (List.infix_iff_prefix_suffix.mpr ⟨s, hp, hs⟩)

/-- A word that does not come in a text does not start in it, either, if no ending of the word comes
behind it. -/
theorem everyTail_append_of_absent {word u v : Text} (h : ¬ word <:+: u)
    (hover : EveryTail (fun s => ¬ s <+: v) word.tail) : EveryTail (fun s => ¬ word <+: s ++ v) u := by
  refine everyTail_of_split fun before c after hsplit hp => ?_
  have hinside : ¬ word <+: c :: after := fun hp =>
    h (List.infix_iff_prefix_suffix.mpr ⟨_, hp, before, hsplit.symm⟩)
  rcases List.prefix_or_prefix_of_prefix hp (List.prefix_append (c :: after) v) with hp | ⟨w, rfl⟩
  · exact hinside hp
  · -- what reaches over the end of the text is an ending of the word
    have hw : w ≠ [] := fun hnil => hinside (by rw [hnil, List.append_nil])
    have hending : w <:+ (c :: after ++ w).tail := List.suffix_append after w
    exact hover.of_suffix hending hw ((List.prefix_append_right_inj _).mp hp)

/-- A word that starts nowhere in a text does not come in it. -/
theorem not_infix_of_everyTail {word u : Text} (hword : word ≠ [])
    (h : EveryTail (fun s => ¬ word <+: s) u) : ¬ word <:+: u := by
  intro hinfix
  obtain ⟨s, hs, hsuffix⟩ := List.infix_iff_prefix_suffix.mp hinfix
  refine h.of_suffix hsuffix ?_ hs
  rintro rfl
  exact hword (List.prefix_nil.mp hs)

/-- A text is cut at the first place where a word comes. -/
theorem absent_of_cut? {word t before rest : Text} (hword : word ≠ [])
    (h : cut? word t = some (before, rest)) : ¬ word <:+: before :=
  not_infix_of_everyTail hword ((everyTail_of_cut? h).imp fun s hs hp =>
    hs (hp.trans (List.prefix_append s _)))

/-! ### Pieces -/

section Pieces

variable {α : Type} {m : Matcher α}

theorem piecesFrom_length (u v : Text) : piecesFrom m u.length (u ++ v) = piecesFrom m 0 v := by
  induction u with
  | nil => rfl
  | cons c cs ih => simpa [piecesFrom] using ih

/-- **Left alone.** A part in which no occurrence starts is kept character by character. -/
theorem pieces_append_of_none {u v : Text} (h : EveryTail (fun s => m (s ++ v) = none) u) :
    pieces m (u ++ v) = u.map Piece.char ++ pieces m v := by
  unfold pieces
  induction u with
  | nil => rfl
  | cons c cs ih =>
    have hc : m (c :: (cs ++ v)) = none := h.1
    simp [piecesFrom, hc, ih h.2]

/-- **Taken as a whole.** What an occurrence at the front covers is one piece. -/
theorem pieces_append_of_some {x v : Text} {f : α} (hx : x ≠ []) (h : m (x ++ v) = some (f, v)) :
    pieces m (x ++ v) = .hit f :: pieces m v := by
  unfold pieces
  cases x with
  | nil => exact absurd rfl hx
  | cons c cs =>
    have hlen : (c :: (cs ++ v)).length - v.length = cs.length + 1 := by simp; omega
    rw [List.cons_append] at h ⊢
    simp only [piecesFrom, h, hlen, piecesFrom_length]

/-- **Left alone behind.** A part in which no occurrence starts, and which a matcher passes on as it is,
is kept behind every text. -/
theorem piecesFrom_append_right {v : Text} (hnil : m [] = none)
    (hv : EveryTail (fun s => m s = none) v)
    (happend : ∀ s, m (s ++ v) = (m s).map fun found => (found.1, found.2 ++ v)) {t : Text}
    {skip : ℕ} (hskip : skip ≤ t.length) :
    piecesFrom m skip (t ++ v) = piecesFrom m skip t ++ v.map .char := by
  induction t generalizing skip with
  | nil =>
    obtain rfl : skip = 0 := by simpa using hskip
    have hnone : EveryTail (fun s => m (s ++ []) = none) v :=
      hv.imp fun s hs => by rwa [List.append_nil]
    have hkept := pieces_append_of_none hnone
    simpa [pieces, piecesFrom, hnil] using hkept
  | cons c cs ih =>
    cases skip with
    | succ skip => exact ih (by simpa using hskip)
    | zero =>
      have hfront := happend (c :: cs)
      cases h : m (c :: cs) with
      | none =>
        rw [h] at hfront
        simp only [List.cons_append, Option.map_none] at hfront
        simp only [List.cons_append, piecesFrom, hfront, h, ih (Nat.zero_le _)]
      | some found =>
        rw [h] at hfront
        simp only [List.cons_append, Option.map_some] at hfront
        have hlength : (c :: (cs ++ v)).length - (found.2 ++ v).length =
            (c :: cs).length - found.2.length := by
          simp only [List.length_cons, List.length_append]
          omega
        simp only [List.cons_append, piecesFrom, hfront, h, hlength]
        cases hskip : (c :: cs).length - found.2.length with
        | zero => simp [ih]
        | succ skip =>
          have hle : skip ≤ cs.length := by
            rw [List.length_cons] at hskip
            omega
          simp [ih hle]

theorem flatMap_text_char (lower : α → Text) (u : Text) :
    (u.map Piece.char).flatMap (Piece.text lower) = u := by
  induction u with
  | nil => rfl
  | cons c cs ih => simpa [Piece.text] using ih

theorem filterMap_found?_char (u : Text) :
    (u.map (Piece.char : Char → Piece α)).filterMap Piece.found? = [] := by
  induction u with
  | nil => rfl
  | cons c cs ih => simp [Piece.found?]

end Pieces

/-! ### Replacing a word -/

section ReplaceWord

variable {word : Text} (new : Text)

theorem literal_eq_none {t : Text} (h : ¬ word <+: t) : literal word t = none := by
  rw [literal, after?_eq_none_iff.mpr h, Option.map_none]

/-- A part in which the word does not start is kept. -/
theorem replaceWord_append_of_none {u v : Text} (h : EveryTail (fun s => ¬ word <+: s ++ v) u) :
    replaceWord word new (u ++ v) = u ++ replaceWord word new v := by
  have hpieces := pieces_append_of_none (m := literal word) (h.imp fun _ => literal_eq_none)
  rw [replaceWord, replaceEach, hpieces, List.flatMap_append, flatMap_text_char]
  rfl

/-- The word at the front is replaced. -/
theorem replaceWord_append_self (hword : word ≠ []) (v : Text) :
    replaceWord word new (word ++ v) = new ++ replaceWord word new v := by
  have hself : literal word (word ++ v) = some ((), v) := by
    rw [literal, after?_append, Option.map_some]
  rw [replaceWord, replaceEach, pieces_append_of_some hword hself, List.flatMap_cons]
  rfl

/-- A text in which the word does not start is kept as a whole. -/
theorem replaceWord_of_none {u : Text} (hword : word ≠ [])
    (h : EveryTail (fun s => ¬ word <+: s) u) : replaceWord word new u = u := by
  have hnil : replaceWord word new [] = [] := by
    have hnone := literal_eq_none fun h : word <+: [] => hword (List.prefix_nil.mp h)
    simp [replaceWord, replaceEach, pieces, piecesFrom, hnone]
  have hall := replaceWord_append_of_none new (u := u) (v := [])
    (h.imp fun s hs => by rwa [List.append_nil])
  rwa [List.append_nil, hnil, List.append_nil] at hall

end ReplaceWord

end Stencil.Text
