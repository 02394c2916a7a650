import Stencil.Proofs.Template.Substituted

/-!
# Tokens without a path

Two ways to deal with a token that has no path: it is replaced by empty text in its turn, or it is not
mentioned at all, and is left to the search for words that look like tokens. A substitution treats what
stands between the characters of tokens apart, so the two ways are compared run by run. Where every
token without a path stands by itself (`StandApart`), **they agree exactly if none of these tokens has a
token with a path in it, and the search takes out the whole of each** (`substituted_unbound_iff`).
-/

namespace Stencil.Template

open Text

/-! ### The order of the tokens -/

section Order

variable {α : Type} {le : α → α → Bool} (trans : ∀ a b c, le a b → le b c → le a c)
  (total : ∀ a b, le a b || le b a)

include trans total

/-- A first element is sorted in behind all that come before it in the order. -/
private theorem mergeSort_cons_of_split {a : α} {l before behind : List α}
    (h : l.mergeSort le = before ++ behind) (hbefore : ∀ b ∈ before, le a b = false)
    (hbehind : ∀ b ∈ behind, le a b = true) : (a :: l).mergeSort le = before ++ a :: behind := by
  obtain ⟨u, v, hcons, hl, hu⟩ := List.mergeSort_cons trans total a l
  have hv : ∀ b ∈ v, le a b = true := by
    have hsorted := List.pairwise_mergeSort trans total (a :: l)
    rw [hcons] at hsorted
    exact (List.pairwise_cons.mp (List.pairwise_append.mp hsorted).2.1).1
  -- Both cuts of the sorted rest are at the first element that does not come before `a`.
  have htake : ∀ {x y : List α}, (∀ b ∈ x, le a b = false) → (∀ b ∈ y, le a b = true) →
      (x ++ y).takeWhile (fun b => !le a b) = x := by
    intro x y hx hy
    rw [List.takeWhile_append_of_pos fun b hb => by rw [hx b hb, Bool.not_false]]
    refine List.append_right_eq_self.mpr (List.takeWhile_eq_nil_iff.mpr fun hpos => ?_)
    rw [hy _ (List.get_mem y ⟨0, hpos⟩), Bool.not_true]
    exact Bool.false_ne_true
  have hsame : u = before := by
    have hcut := htake (fun b hb => by simpa using hu b hb) hv
    rw [← hl, h, htake hbefore hbehind] at hcut
    exact hcut.symm
  subst hsame
  rw [hcons, List.append_cancel_left (hl.symm.trans h)]

/-- Sorting keeps the order of what is left out of a list and of what is not. -/
private theorem mergeSort_filter (p : α → Bool) (l : List α) :
    (l.filter p).mergeSort le = (l.mergeSort le).filter p := by
  induction l with
  | nil => simp
  | cons a l ih =>
    obtain ⟨u, v, hcons, hl, hu⟩ := List.mergeSort_cons trans total a l
    have hsorted := List.pairwise_mergeSort trans total (a :: l)
    rw [hcons] at hsorted
    have hv := (List.pairwise_cons.mp (List.pairwise_append.mp hsorted).2.1).1
    rw [hl, List.filter_append] at ih
    by_cases ha : p a = true
    · rw [List.filter_cons_of_pos ha, hcons, List.filter_append, List.filter_cons_of_pos ha]
      refine mergeSort_cons_of_split trans total ih (fun b hb => ?_) fun b hb => ?_
      · simpa using hu b (List.mem_of_mem_filter hb)
      · exact hv b (List.mem_of_mem_filter hb)
    · rw [List.filter_cons_of_neg ha, hcons, List.filter_append, List.filter_cons_of_neg ha, ih]

end Order

/-- Tokens that are left out make no difference to the order of the others. -/
theorem byLength_filter (p : Row → Bool) (tokens : List Row) :
    byLength (tokens.filter p) = (byLength tokens).filter p := by
  refine mergeSort_filter (fun a b c => ?_) (fun a b => ?_) p tokens
  · simp only [decide_eq_true_eq]
    omega
  · simp only [Bool.or_eq_true, decide_eq_true_eq]
    omega

/-! ### Tokens that stand apart -/

/-- A token without a path. -/
def Row.isUnbound (entry : Row) : Bool := entry.2.isNone

/-- The tokens with a path. -/
def boundOf (tokens : List Row) : List Row := tokens.filter fun entry => !entry.isUnbound

/-- The characters that tokens are made of: those of words that look like tokens, and those of the
tokens of a table. -/
def isPart (shape : Marker.Shape) (tokens : List Row) (c : Char) : Bool :=
  isTokenChar c || shape.lead.toList.contains c || shape.tail.toList.contains c ||
    tokens.any fun entry => entry.1.toList.contains c

/-- That the tokens without a path **stand apart** in a text: where one comes, between characters that
tokens are not made of, all that stands there is one of them. They are no part of a reference, either. -/
structure StandApart (shape : Marker.Shape) (tokens : List Row) (t : Text) : Prop where
  nodup : (tokens.map Prod.fst).Nodup
  ne_nil : ∀ entry ∈ tokens, entry.1.toList ≠ []
  opening_not_mem : ∀ entry ∈ tokens, entry.isUnbound = true → '\x7b' ∉ entry.1.toList
  closing_not_mem : ∀ entry ∈ tokens, entry.isUnbound = true → '\x7d' ∉ entry.1.toList
  path : ∀ entry ∈ tokens, entry.isUnbound = true → ∀ other ∈ tokens, ∀ path ∈ other.2,
    ¬ entry.1.toList <:+: path.toList
  alone : ∀ w ∈ runs (isPart shape tokens) t, ∀ entry ∈ tokens, entry.isUnbound = true →
    entry.1.toList <:+: w → ∃ other ∈ tokens, other.isUnbound = true ∧ other.1.toList = w

/-- That nothing comes in the way of the tokens without a path in a text: they have no token with a path
in them, and the search for words that look like tokens takes out the whole of them. -/
def AllTakenOut (shape : Marker.Shape) (tokens : List Row) (t : Text) : Prop :=
  ∀ w ∈ runs (isPart shape tokens) t, ∀ entry ∈ tokens, entry.isUnbound = true →
    entry.1.toList = w →
      (∀ other ∈ boundOf tokens, ¬ other.1.toList <:+: w) ∧ withoutLeftovers shape w = []

/-- Replaced words make no difference to a word without braces at the front. -/
private theorem prefix_of_prefix_replaceWord {n word u t : Text} {path : String}
    (hopening : '\x7b' ∉ n) (hword : word ≠ [])
    (h : n <+: u ++ replaceWord word (reference path) t) : n <+: u ++ t := by
  induction hlength : t.length using Nat.strong_induction_on generalizing t u with
  | _ k ih =>
    by_cases hstarts : word <+: t
    · obtain ⟨v, rfl⟩ := hstarts
      rw [replaceWord_append_self _ hword, reference] at h
      exact (prefix_of_prefix_append_cons h hopening).trans (List.prefix_append _ _)
    · cases t with
      | nil => rwa [replaceWord_of_none _ hword (everyTail_nil _)] at h
      | cons c cs =>
        have hfirst : replaceWord word (reference path) (c :: cs) =
            c :: replaceWord word (reference path) cs :=
          replaceWord_append_of_none (u := [c]) (v := cs) _ ⟨hstarts, trivial⟩
        rw [hfirst, List.append_cons] at h
        rw [List.append_cons]
        exact ih cs.length (by rw [← hlength]; exact Nat.lt_succ_self _) h rfl

/-- A word without braces comes in a text with a token replaced only where it came before, or in the
path. -/
private theorem infix_of_infix_replaceWord {n word t : Text} {path : String}
    (hopening : '\x7b' ∉ n) (hclosing : '\x7d' ∉ n) (hword : word ≠ [])
    (h : n <:+: replaceWord word (reference path) t) : n <:+: t ∨ n <:+: path.toList := by
  induction hlength : t.length using Nat.strong_induction_on generalizing t with
  | _ k ih =>
    by_cases hstarts : word <+: t
    · obtain ⟨v, rfl⟩ := hstarts
      have hshorter : v.length < k := by
        have := List.length_pos_iff.mpr hword
        rw [← hlength, List.length_append]
        omega
      rw [replaceWord_append_self _ hword] at h
      -- The word cannot reach over any of the four braces.
      have hnil : n <:+: [] → n <:+: word ++ v := fun h => h.trans (List.nil_infix)
      have hparts : reference path ++ replaceWord word (reference path) v =
          [] ++ '\x7b' :: ([] ++ '\x7b' :: (path.toList ++ '\x7d' ::
            ([] ++ '\x7d' :: replaceWord word (reference path) v))) := by
        simp [reference]
      rw [hparts] at h
      rcases infix_of_infix_append_cons h hopening with h | h
      · exact .inl (hnil h)
      rcases infix_of_infix_append_cons h hopening with h | h
      · exact .inl (hnil h)
      rcases infix_of_infix_append_cons h hclosing with h | h
      · exact .inr h
      rcases infix_of_infix_append_cons h hclosing with h | h
      · exact .inl (hnil h)
      exact (ih v.length hshorter h rfl).imp_left fun h =>
        h.trans (List.suffix_append _ _).isInfix
    · cases t with
      | nil =>
        rw [replaceWord_of_none _ hword (everyTail_nil _)] at h
        exact .inl h
      | cons c cs =>
        have hfirst : replaceWord word (reference path) (c :: cs) =
            c :: replaceWord word (reference path) cs :=
          replaceWord_append_of_none (u := [c]) (v := cs) _ ⟨hstarts, trivial⟩
        rw [hfirst] at h
        rcases List.infix_cons_iff.mp h with h | h
        · exact .inl (prefix_of_prefix_replaceWord (u := [c]) hopening hword h).isInfix
        · refine (ih cs.length ?_ h rfl).imp_left List.infix_cons
          rw [← hlength]
          exact Nat.lt_succ_self _

/-! ### One run -/

/-- Where a word comes in a text, what replaces it comes in the result. -/
private theorem infix_replaceWord {word new t : Text} (hword : word ≠ []) (h : word <:+: t) :
    new <:+: replaceWord word new t := by
  induction t with
  | nil => exact absurd (List.infix_nil.mp h) hword
  | cons c cs ih =>
    by_cases hstarts : word <+: c :: cs
    · obtain ⟨v, hv⟩ := hstarts
      rw [← hv, replaceWord_append_self _ hword]
      exact (List.prefix_append _ _).isInfix
    · have hfirst : replaceWord word new (c :: cs) = c :: replaceWord word new cs :=
        replaceWord_append_of_none (u := [c]) (v := cs) _ ⟨hstarts, trivial⟩
      rw [hfirst]
      exact List.infix_cons (ih ((List.infix_cons_iff.mp h).resolve_left hstarts))

/-- A token with a path leaves a brace in every text that it comes in. -/
theorem opening_mem_replaceTokens {tokens : List Row} {t : Text}
    (hne : ∀ entry ∈ tokens, entry.1.toList ≠ [])
    (hbound : ∀ entry ∈ tokens, entry.isUnbound = false)
    (h : '\x7b' ∈ t ∨ ∃ entry ∈ tokens, entry.1.toList <:+: t) : '\x7b' ∈ replaceTokens tokens t := by
  induction tokens generalizing t with
  | nil => exact h.resolve_right (by simp)
  | cons first rest ih =>
    rw [List.forall_mem_cons] at hne hbound
    rw [replaceTokens, List.foldl_cons]
    refine ih hne.2 hbound.2 ?_
    by_cases hfirst : first.1.toList <:+: t
    · obtain ⟨path, hpath⟩ : ∃ path, first.2 = some path :=
        Option.isSome_iff_exists.mp (Option.isNone_eq_false_iff.mp hbound.1)
      have hreference : reference path <:+: replaceToken t first := by
        rw [replaceToken, Row.image, hpath]
        exact infix_replaceWord hne.1 hfirst
      exact .inl (hreference.subset (List.mem_cons_self))
    · rw [replaceToken_of_absent hfirst]
      refine h.imp_right ?_
      rintro ⟨entry, hentry, hinfix⟩
      rcases List.mem_cons.mp hentry with rfl | hentry
      · exact absurd hinfix hfirst
      · exact ⟨entry, hentry, hinfix⟩

/-- Tokens without a path that do not come in a text make no difference to it, if they come in no path
either. -/
theorem replaceTokens_boundOf {tokens : List Row} {t : Text}
    (hne : ∀ entry ∈ tokens, entry.1.toList ≠ [])
    (hopening : ∀ entry ∈ tokens, entry.isUnbound = true → '\x7b' ∉ entry.1.toList)
    (hclosing : ∀ entry ∈ tokens, entry.isUnbound = true → '\x7d' ∉ entry.1.toList)
    (hpath : ∀ entry ∈ tokens, entry.isUnbound = true → ∀ other ∈ tokens, ∀ path ∈ other.2,
      ¬ entry.1.toList <:+: path.toList)
    (habsent : ∀ entry ∈ tokens, entry.isUnbound = true → ¬ entry.1.toList <:+: t) :
    replaceTokens tokens t = replaceTokens (boundOf tokens) t := by
  induction tokens generalizing t with
  | nil => rfl
  | cons first rest ih =>
    have hrest : ∀ {p : Row → Prop}, (∀ entry ∈ first :: rest, p entry) → ∀ entry ∈ rest, p entry :=
      fun h => (List.forall_mem_cons.mp h).2
    have ih := fun {t : Text} => ih (t := t) (hrest hne) (hrest hopening) (hrest hclosing)
      fun entry hentry hunbound => hrest (hrest hpath entry hentry hunbound)
    rw [replaceTokens, List.foldl_cons, boundOf]
    -- an unbound token is not in the text, and a reference in place of a bound one brings none about
    obtain ⟨token, _ | path⟩ := first
    · rw [List.filter_cons_of_neg (by simp [Row.isUnbound]),
        replaceToken_of_absent (habsent _ List.mem_cons_self rfl)]
      exact ih (hrest habsent)
    · rw [List.filter_cons_of_pos (by simp [Row.isUnbound]), replaceTokens, List.foldl_cons]
      refine ih fun entry hentry hunbound h => ?_
      have hmem := List.mem_cons_of_mem (token, some path) hentry
      rcases infix_of_infix_replaceWord (hopening entry hmem hunbound) (hclosing entry hmem hunbound)
        (hne _ List.mem_cons_self) h with h | h
      · exact habsent entry hmem hunbound h
      · exact hpath entry hmem hunbound _ List.mem_cons_self path rfl h

/-! ### Both ways -/

section BothWays

variable {shape : Marker.Shape} {tokens : List Row} {t w : Text}

theorem substituted_boundOf (h : StandApart shape tokens t)
    (habsent : ∀ entry ∈ tokens, entry.isUnbound = true → ¬ entry.1.toList <:+: w) :
    substituted shape (boundOf tokens) w = substituted shape tokens w := by
  have hmem : ∀ {entry : Row}, entry ∈ byLength tokens → entry ∈ tokens := List.mem_mergeSort.mp
  rw [substituted, substituted, boundOf, byLength_filter]
  refine congrArg _ (replaceTokens_boundOf (fun entry hentry => h.ne_nil entry (hmem hentry))
    (fun entry hentry => h.opening_not_mem entry (hmem hentry))
    (fun entry hentry => h.closing_not_mem entry (hmem hentry)) (fun entry hentry hunbound other hother =>
      h.path entry (hmem hentry) hunbound other (hmem hother))
    fun entry hentry => habsent entry (hmem hentry)).symm

/-- In its turn, a token without a path becomes empty text where it stands by itself. -/
theorem substituted_alone (h : StandApart shape tokens t) {entry : Row} (hmem : entry ∈ tokens)
    (hunbound : entry.isUnbound = true) : substituted shape tokens entry.1.toList = [] := by
  have himage : entry.image = [] := by
    rw [Row.image, Option.isNone_iff_eq_none.mp hunbound]
    rfl
  rw [substituted_self shape h.nodup hmem, himage, withoutLeftovers_nil]
  rw [himage]
  exact fun other hother hinfix => h.ne_nil other hother (List.infix_nil.mp hinfix)

/-- If it is not mentioned, it becomes empty text exactly if it has no token with a path in it and the
search takes out the whole of it. -/
theorem substituted_boundOf_eq_nil_iff (hlead : '\x7b' ∉ shape.lead.toList)
    (htail : '\x7b' ∉ shape.tail.toList) (hne : ∀ entry ∈ tokens, entry.1.toList ≠ []) :
    substituted shape (boundOf tokens) w = [] ↔
      (∀ other ∈ boundOf tokens, ¬ other.1.toList <:+: w) ∧ withoutLeftovers shape w = [] := by
  have hmem : ∀ {entry : Row}, entry ∈ byLength (boundOf tokens) ↔ entry ∈ boundOf tokens :=
    List.mem_mergeSort
  have hunchanged : (∀ other ∈ boundOf tokens, ¬ other.1.toList <:+: w) →
      substituted shape (boundOf tokens) w = withoutLeftovers shape w := fun habsent => by
    rw [substituted, replaceTokens_of_absent fun other hother => habsent other (hmem.mp hother)]
  constructor
  · intro hnil
    have habsent : ∀ other ∈ boundOf tokens, ¬ other.1.toList <:+: w := by
      intro other hother hinfix
      have hopening : '\x7b' ∈ replaceTokens (byLength (boundOf tokens)) w := by
        refine opening_mem_replaceTokens (fun entry hentry => ?_) (fun entry hentry => ?_)
          (.inr ⟨other, hmem.mpr hother, hinfix⟩)
        · exact hne entry (List.mem_of_mem_filter (hmem.mp hentry))
        · simpa using List.of_mem_filter (hmem.mp hentry)
      -- The search stops at braces, so this one stays.
      obtain ⟨u, v, hsplit⟩ := List.append_of_mem hopening
      rw [substituted, hsplit, withoutLeftovers,
        replaceEach_append_cons (stopsAt_tokenLike? hlead htail (by decide))] at hnil
      simp at hnil
    exact ⟨habsent, hunchanged habsent ▸ hnil⟩
  · rintro ⟨habsent, hleft⟩
    rw [hunchanged habsent, hleft]

/-- **Both ways agree** on a text where the tokens without a path stand apart exactly if nothing comes in
their way: to replace them by empty text in their turn is the same as not to mention them, unless one of
them has a token with a path in it, or does not look like a token as a whole. -/
theorem substituted_unbound_iff (hlead : '\x7b' ∉ shape.lead.toList)
    (htail : '\x7b' ∉ shape.tail.toList) (h : StandApart shape tokens t) :
    substituted shape (boundOf tokens) t = substituted shape tokens t ↔
      AllTakenOut shape tokens t := by
  have hchars : ∀ entry ∈ tokens, ∀ c ∈ entry.1.toList, isPart shape tokens c = true := by
    intro entry hentry c hc
    have hany : (tokens.any fun entry => entry.1.toList.contains c) = true :=
      List.any_eq_true.mpr ⟨entry, hentry, List.contains_iff_mem.mpr hc⟩
    rw [isPart, hany, Bool.or_true]
  have htreats : ∀ subset ⊆ tokens,
      TreatsApart (isPart shape tokens) (substituted shape subset) := by
    intro subset hsubset
    refine treatsApart_substituted (fun c hc => ?_) (fun c hc => ?_) (fun c hc => ?_)
      fun entry hentry => hchars entry (hsubset hentry)
    · simp [isPart, hc]
    · simp [isPart, hc]
    · simp [isPart, hc]
  have hbound : boundOf tokens ⊆ tokens := List.filter_subset_self tokens
  -- A run is a token without a path, or has none in it.
  have hrun : ∀ w ∈ runs (isPart shape tokens) t,
      (∃ other ∈ tokens, other.isUnbound = true ∧ other.1.toList = w) ∨
        substituted shape (boundOf tokens) w = substituted shape tokens w := by
    intro w hw
    by_cases habsent : ∀ entry ∈ tokens, entry.isUnbound = true → ¬ entry.1.toList <:+: w
    · exact .inr (substituted_boundOf h habsent)
    · push Not at habsent
      obtain ⟨entry, hentry, hunbound, hinfix⟩ := habsent
      exact .inl (h.alone w hw entry hentry hunbound hinfix)
  rw [eq_iff_forall_runs (htreats _ hbound) (htreats _ (List.Subset.refl _))]
  · refine ⟨fun hall w hw entry hentry hunbound hword => ?_, fun hall w hw => ?_⟩
    · refine (substituted_boundOf_eq_nil_iff hlead htail h.ne_nil).mp ?_
      rw [hall w hw, ← hword, substituted_alone h hentry hunbound]
    · rcases hrun w hw with ⟨other, hother, hunbound, rfl⟩ | hsame
      · have hnil := hall _ hw other hother hunbound rfl
        rw [(substituted_boundOf_eq_nil_iff hlead htail h.ne_nil).mpr hnil,
          substituted_alone h hother hunbound]
      · exact hsame
  · intro w hw
    rcases hrun w hw with ⟨other, hother, hunbound, rfl⟩ | hsame
    · rw [substituted_alone h hother hunbound]
      exact Nat.zero_le _
    · rw [hsame]

end BothWays

end Stencil.Template
