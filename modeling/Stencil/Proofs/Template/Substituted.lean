import Stencil.Proofs.Template.Substitution
import Stencil.Proofs.Text.Runs

/-!
# The text of a substitution

A substitution that is not strict always gives a text, `substituted` (`exists_substitute`), and a strict one
does the same up to the first token without a path, where it fails. The two run in step (`InStep`), since
strictness is asked for in one place only, in the middle of work that is otherwise the same; so **strictness
only adds the failure** (`substitute_strict`).

The text treats what stands between the characters of tokens apart (`treatsApart_substituted`), so it is
enough to know what becomes of a text without any token (`substituted_of_unmarked`) and of a token by itself
(`substituted_token`).
-/

namespace Stencil.Template

open Text

/-! ### The text of a substitution -/

/-- A row of a table: a token, and its path if it has one. -/
abbrev Row := String × Option String

/-- The text that stands for a token. -/
def Row.image (entry : Row) : Text := (entry.2.map reference).getD []

/-- A text with one token replaced. -/
def replaceToken (t : Text) (entry : Row) : Text := replaceWord entry.1.toList entry.image t

/-- A text with tokens replaced one after the other. -/
def replaceTokens (tokens : List Row) (t : Text) : Text := tokens.foldl replaceToken t

/-- A text without the words that look like tokens. -/
def withoutLeftovers (shape : Marker.Shape) (t : Text) : Text :=
  replaceEach (tokenLike? shape) (fun _ => []) t

/-- A text with all tokens replaced and without the words that look like tokens. -/
def substituted (shape : Marker.Shape) (tokens : List Row) (t : Text) : Text :=
  withoutLeftovers shape (replaceTokens (byLength tokens) t)

/-- A token that does not come in a text is replaced nowhere. -/
theorem replaceToken_of_absent {t : Text} {entry : Row} (h : ¬ entry.1.toList <:+: t) :
    replaceToken t entry = t := by
  have hne : entry.1.toList ≠ [] := fun hnil => h (hnil ▸ List.nil_infix)
  exact replaceWord_of_none _ hne (everyTail_of_absent h)

/-! ### With and without strictness -/

/-- **In step.** Work gives a value and writes down some events, and strict work does the same, or does so up
to the first token without a path among the events and fails with it. -/
def InStep {α : Type} (strict lenient : Work α) (a : α) : Prop :=
  ∀ journal, ∃ events, lenient journal = (.ok a, journal ++ events) ∧
    ((unresolvedTokens events = [] ∧ strict journal = (.ok a, journal ++ events)) ∨
      ∃ before token after, events = before ++ .unresolved token :: after ∧
        unresolvedTokens before = [] ∧
        strict journal = (.error (.unresolvedMarker token), journal ++ before))

namespace InStep

variable {α β : Type} {x x' : Work α} {f f' : α → Work β} {a : α} {b : β}

theorem pure (a : α) : InStep (Pure.pure a) (Pure.pure a) a := fun journal =>
  ⟨[], by rw [List.append_nil]; rfl, .inl ⟨rfl, by rw [List.append_nil]; rfl⟩⟩

theorem record {events : List Event} (h : unresolvedTokens events = []) :
    InStep (Template.record events) (Template.record events) () := fun _ =>
  ⟨events, rfl, .inl ⟨h, rfl⟩⟩

/-- Here strictness makes its difference. -/
theorem removeUnresolved (token : String) :
    InStep (Template.removeUnresolved true token) (Template.removeUnresolved false token) () := fun journal =>
  ⟨[.unresolved token], rfl, .inr ⟨[], token, [], rfl, rfl, by rw [List.append_nil]; rfl⟩⟩

/-- Work that goes in step does so one after the other. -/
theorem bind (hx : InStep x x' a) (hf : InStep (f a) (f' a) b) : InStep (x >>= f) (x' >>= f') b := by
  intro journal
  obtain ⟨events, hlenient, hstrict⟩ := hx journal
  obtain ⟨events', hlenient', hstrict'⟩ := hf (journal ++ events)
  refine ⟨events ++ events', by rw [Work.bind_of_ok hlenient, hlenient', List.append_assoc], ?_⟩
  rcases hstrict with ⟨hnone, hx⟩ | ⟨before, token, after, rfl, hbefore, hx⟩
  · -- the first part has come to its end, and the second one decides
    rw [Work.bind_of_ok hx]
    rcases hstrict' with ⟨hnone', hf⟩ | ⟨before, token, after, rfl, hbefore, hf⟩
    · refine .inl ⟨?_, by rw [hf, List.append_assoc]⟩
      rw [unresolvedTokens_append, hnone, hnone', List.append_nil]
    · refine .inr ⟨events ++ before, token, after, by rw [List.append_assoc], ?_, ?_⟩
      · rw [unresolvedTokens_append, hnone, hbefore, List.append_nil]
      · rw [hf, List.append_assoc]
  · exact .inr ⟨before, token, after ++ events', by rw [List.append_assoc, List.cons_append], hbefore,
      Work.bind_of_error hx⟩

end InStep

/-- Replacing a token is in step, whether it has a path or not. -/
theorem inStep_substituteToken (t : Text) (entry : Row) :
    InStep (substituteToken true t entry.1 entry.2) (substituteToken false t entry.1 entry.2)
      (replaceToken t entry) := by
  by_cases hhas : has entry.1.toList t = true
  · obtain ⟨token, _ | path⟩ := entry
    · simp only [substituteToken, hhas, if_true]
      exact .bind (.removeUnresolved token) (.pure _)
    · simp only [substituteToken, hhas, if_true]
      exact .bind (.record rfl) (.pure _)
  · rw [replaceToken_of_absent fun h => hhas (has_iff.mpr h)]
    simp only [substituteToken, hhas]
    exact .pure t

theorem inStep_substituteEach (tokens : List Row) (t : Text) :
    InStep (substituteEach true tokens t) (substituteEach false tokens t) (replaceTokens tokens t) := by
  induction tokens generalizing t with
  | nil => exact .pure t
  | cons entry rest ih => exact .bind (inStep_substituteToken t entry) (ih (replaceToken t entry))

theorem inStep_removeLeftovers (shape : Marker.Shape) (t : Text) :
    InStep (removeLeftovers shape true t) (removeLeftovers shape false t) (withoutLeftovers shape t) := by
  have hwords : ∀ words : List Text,
      InStep (words.forM fun word => removeUnresolved true (String.ofList word))
        (words.forM fun word => removeUnresolved false (String.ofList word)) () := by
    intro words
    induction words with
    | nil => exact .pure ()
    | cons word rest ih => exact .bind (.removeUnresolved _) ih
  exact .bind (hwords _) (.pure _)

/-- Substitution as a whole is in step. -/
theorem inStep_substitute (shape : Marker.Shape) (tokens : List Row) (t : Text) :
    InStep (substitute shape true tokens t) (substitute shape false tokens t)
      (substituted shape tokens t) :=
  .bind (inStep_substituteEach (byLength tokens) t) (inStep_removeLeftovers shape _)

/-- **Without strictness** a substitution always gives its text. -/
theorem exists_substitute (shape : Marker.Shape) (tokens : List Row) (t : Text)
    (journal : Journal) :
    ∃ journal', substitute shape false tokens t journal =
      (.ok (substituted shape tokens t), journal') := by
  obtain ⟨events, hlenient, -⟩ := inStep_substitute shape tokens t journal
  exact ⟨journal ++ events, hlenient⟩

/-- **Strictness only adds the failure.** A strict substitution fails exactly if the one that is not strict
writes down a token without a path, and with the first one of them, having written down what comes before;
where it does not fail, it gives the same text and the same journal. -/
theorem substitute_strict (shape : Marker.Shape) (tokens : List Row) (t : Text) (journal : Journal) :
    ∃ events, substitute shape false tokens t journal =
        (.ok (substituted shape tokens t), journal ++ events) ∧
      ((∃ failure, (substitute shape true tokens t journal).1 = .error failure) ↔
        unresolvedTokens events ≠ []) ∧
      (∀ failure, (substitute shape true tokens t journal).1 = .error failure →
        ∃ before token after, events = before ++ .unresolved token :: after ∧
          unresolvedTokens before = [] ∧ token ∈ unresolvedTokens events ∧
          substitute shape true tokens t journal = (.error (.unresolvedMarker token), journal ++ before) ∧
          failure = .unresolvedMarker token) ∧
      ∀ u, (substitute shape true tokens t journal).1 = .ok u →
        substitute shape true tokens t journal = substitute shape false tokens t journal := by
  obtain ⟨events, hlenient, hstrict⟩ := inStep_substitute shape tokens t journal
  refine ⟨events, hlenient, ?_⟩
  rcases hstrict with ⟨hnone, hstrict⟩ | ⟨before, token, after, rfl, hbefore, hstrict⟩
  · rw [hstrict, hlenient]
    refine ⟨⟨nofun, fun hne => absurd hnone hne⟩, nofun, fun _ _ => rfl⟩
  · have hmem : token ∈ unresolvedTokens (before ++ .unresolved token :: after) := by
      rw [unresolvedTokens_append]
      exact List.mem_append_right _ List.mem_cons_self
    rw [hstrict]
    refine ⟨⟨fun _ => List.ne_nil_of_mem hmem, fun _ => ⟨_, rfl⟩⟩, fun failure hfailure => ?_, nofun⟩
    exact ⟨before, token, after, rfl, hbefore, hmem, rfl, (Except.error.inj hfailure).symm⟩

/-- A token with a path, and one without. -/
def halfBound : List Row := [("P_bb_", some "b"), ("P_a_", none)]

theorem substitute_halfBound :
    (substitute ⟨"P_", "_"⟩ true halfBound "P_bb_ P_a_".toList []).1 =
        .error (.unresolvedMarker "P_a_") ∧
      (∃ u events, substitute ⟨"P_", "_"⟩ false halfBound "P_bb_ P_a_".toList [] = (.ok u, events) ∧
        "P_a_" ∈ unresolvedTokens events) ∧
      (substitute ⟨"P_", "_"⟩ true halfBound "P_bb_".toList []).1 = .ok "\x7b\x7bb\x7d\x7d".toList ∧
      substitute ⟨"P_", "_"⟩ true halfBound "P_bb_".toList [] =
        substitute ⟨"P_", "_"⟩ false halfBound "P_bb_".toList [] := by
  have hsorted : byLength halfBound = halfBound := List.mergeSort_of_pairwise (by decide)
  have hfails : (substitute ⟨"P_", "_"⟩ true halfBound "P_bb_ P_a_".toList []).1 =
      .error (.unresolvedMarker "P_a_") := by
    rw [substitute, hsorted]
    rfl
  have hreturns : (substitute ⟨"P_", "_"⟩ true halfBound "P_bb_".toList []).1 =
      .ok "\x7b\x7bb\x7d\x7d".toList := by
    rw [substitute, hsorted]
    rfl
  obtain ⟨events, hlenient, -, hfailure, -⟩ :=
    substitute_strict ⟨"P_", "_"⟩ halfBound "P_bb_ P_a_".toList []
  obtain ⟨-, -, -, -, hsame⟩ := substitute_strict ⟨"P_", "_"⟩ halfBound "P_bb_".toList []
  obtain ⟨-, token, -, -, -, hmem, -, htoken⟩ := hfailure _ hfails
  obtain rfl : "P_a_" = token := by simpa using htoken
  exact ⟨hfails, ⟨_, events, hlenient, hmem⟩, hreturns, hsame _ hreturns⟩

/-! ### Run by run -/

section Runs

variable {isPart : Char → Bool}

/-- A token of word characters is replaced in every word by itself. -/
theorem treatsApart_replaceToken {entry : Row} (h : ∀ c ∈ entry.1.toList, isPart c = true) :
    TreatsApart isPart fun t => replaceToken t entry := by
  intro c hc u v
  refine replaceWord_append_cons (fun hmem => ?_) _ u v
  rw [h c hmem] at hc
  cases hc

theorem treatsApart_replaceTokens {tokens : List Row}
    (h : ∀ entry ∈ tokens, ∀ c ∈ entry.1.toList, isPart c = true) :
    TreatsApart isPart (replaceTokens tokens) := by
  induction tokens with
  | nil => exact fun _ _ _ _ => rfl
  | cons entry rest ih =>
    rw [List.forall_mem_cons] at h
    exact (ih h.2).comp (treatsApart_replaceToken h.1)

/-- The run that is found before a word is not longer than the text before the word. -/
private theorem length_of_longestBefore? {tail t body : Text} {n : ℕ}
    (h : longestBefore? tail t n = some body) : body.length + tail.length ≤ t.length := by
  have hstarts : ∀ k, startsWith tail (t.drop k) = true → (t.take k).length + tail.length ≤ t.length := by
    intro k hk
    have hle := (startsWith_iff.mp hk).length_le
    rw [List.length_drop] at hle
    rw [List.length_take]
    by_cases hshort : k ≤ t.length
    · omega
    · omega
  induction n with
  | zero =>
    rw [longestBefore?] at h
    split at h
    · next hk =>
      obtain rfl := Option.some.inj h
      simpa using hstarts 0 hk
    · cases h
  | succ n ih =>
    rw [longestBefore?] at h
    split at h
    · next hk =>
      obtain rfl := Option.some.inj h
      exact hstarts _ hk
    · exact ih h

private theorem longestBefore?_append_cons {tail : Text} {c : Char} (hc : c ∉ tail) (t v : Text)
    {n : ℕ} (hn : n ≤ t.length) :
    longestBefore? tail (t ++ c :: v) n = longestBefore? tail t n := by
  have hstarts : ∀ k ≤ t.length,
      startsWith tail ((t ++ c :: v).drop k) = startsWith tail (t.drop k) := by
    intro k hk
    rw [List.drop_append_of_le_length hk, Bool.eq_iff_iff, startsWith_iff, startsWith_iff]
    exact ⟨fun h => prefix_of_prefix_append_cons h hc, fun h => h.trans (List.prefix_append _ _)⟩
  induction n with
  | zero =>
    have hzero := hstarts 0 (Nat.zero_le _)
    rw [List.drop_zero, List.drop_zero] at hzero
    rw [longestBefore?, longestBefore?, hzero]
  | succ n ih =>
    rw [longestBefore?, longestBefore?, hstarts _ hn, List.take_append_of_le_length hn,
      ih (Nat.le_of_succ_le hn)]

/-- Looking for a word like a token stops at a character that no such word has. -/
theorem stopsAt_tokenLike? {shape : Marker.Shape} {c : Char} (hlead : c ∉ shape.lead.toList)
    (htail : c ∉ shape.tail.toList) (hc : isTokenChar c = false) : StopsAt (tokenLike? shape) c := by
  intro u v
  have hafter := stopsAt_literal hlead u v
  rw [literal, literal] at hafter
  rw [tokenLike?, tokenLike?]
  rcases hu : after? shape.lead.toList u with _ | rest
  · have hnone : after? shape.lead.toList (u ++ c :: v) = none := by simpa [hu] using hafter
    rw [hnone]
    rfl
  · have hsome : after? shape.lead.toList (u ++ c :: v) = some (rest ++ c :: v) := by
      simpa [hu] using hafter
    -- neither the run of token characters nor the tail reaches over `c`
    have hrun : (rest ++ c :: v).takeWhile isTokenChar = rest.takeWhile isTokenChar := by
      rw [List.takeWhile_append]
      split
      · next hall =>
        rw [List.takeWhile_cons_of_neg (by rw [hc]; exact Bool.false_ne_true), List.append_nil]
        exact (List.takeWhile_prefix _).eq_of_length hall |>.symm
      · rfl
    have hlength : (rest.takeWhile isTokenChar).length ≤ rest.length :=
      (List.takeWhile_prefix _).length_le
    simp only [hsome, Option.bind_eq_bind, Option.bind_some, hrun,
      longestBefore?_append_cons htail rest v hlength]
    rcases hbody : longestBefore? shape.tail.toList rest (rest.takeWhile isTokenChar).length with
      _ | body
    · rfl
    · simp [List.drop_append_of_le_length (length_of_longestBefore? hbody)]

theorem treatsApart_withoutLeftovers {shape : Marker.Shape}
    (htoken : ∀ c, isTokenChar c = true → isPart c = true)
    (hlead : ∀ c ∈ shape.lead.toList, isPart c = true)
    (htail : ∀ c ∈ shape.tail.toList, isPart c = true) :
    TreatsApart isPart (withoutLeftovers shape) := by
  intro c hc u v
  have hout : ∀ {p : Prop}, (p → isPart c = true) → ¬ p := fun hp h => by
    rw [hp h] at hc
    cases hc
  refine replaceEach_append_cons (stopsAt_tokenLike? (hout (hlead c)) (hout (htail c)) ?_) _ u v
  exact Bool.not_eq_true _ ▸ hout (htoken c)

/-- **Run by run.** A substitution treats what stands between the characters of tokens apart. -/
theorem treatsApart_substituted {shape : Marker.Shape} {tokens : List Row}
    (htoken : ∀ c, isTokenChar c = true → isPart c = true)
    (hlead : ∀ c ∈ shape.lead.toList, isPart c = true)
    (htail : ∀ c ∈ shape.tail.toList, isPart c = true)
    (htokens : ∀ entry ∈ tokens, ∀ c ∈ entry.1.toList, isPart c = true) :
    TreatsApart isPart (substituted shape tokens) := by
  refine (treatsApart_withoutLeftovers htoken hlead htail).comp
    (treatsApart_replaceTokens fun entry hentry => ?_)
  exact htokens entry (List.mem_mergeSort.mp hentry)

end Runs

/-! ### One token -/

theorem withoutLeftovers_nil (shape : Marker.Shape) : withoutLeftovers shape [] = [] := by
  rw [withoutLeftovers, replaceEach, pieces, piecesFrom]
  cases tokenLike? shape [] <;> rfl

/-- Without tokens a text stays as it is. -/
theorem replaceTokens_of_absent {tokens : List Row} {t : Text}
    (h : ∀ entry ∈ tokens, ¬ entry.1.toList <:+: t) : replaceTokens tokens t = t := by
  induction tokens with
  | nil => rfl
  | cons entry rest ih =>
    rw [List.forall_mem_cons] at h
    rw [replaceTokens, List.foldl_cons, replaceToken_of_absent h.1]
    exact ih h.2

/-- The tokens are replaced in the order of their lengths. -/
theorem pairwise_byLength (tokens : List Row) :
    (byLength tokens).Pairwise fun a b => b.1.length ≤ a.1.length := by
  refine (List.pairwise_mergeSort (fun a b c => ?_) (fun a b => ?_) tokens).imp of_decide_eq_true
  · simp only [decide_eq_true_eq]
    omega
  · simp only [Bool.or_eq_true, decide_eq_true_eq]
    omega

/-- A token by itself is replaced in its turn, if there is no token in what replaces it: all that are
replaced before it are too long to come in it. -/
theorem replaceTokens_self {tokens : List Row} {row : Row}
    (hsorted : tokens.Pairwise fun a b => b.1.length ≤ a.1.length)
    (hnodup : (tokens.map Prod.fst).Nodup) (hmem : row ∈ tokens)
    (himage : ∀ other ∈ tokens, ¬ other.1.toList <:+: row.image) :
    replaceTokens tokens row.1.toList = row.image := by
  induction tokens with
  | nil => cases hmem
  | cons first rest ih =>
    rw [List.forall_mem_cons] at himage
    rw [List.map_cons, List.nodup_cons] at hnodup
    rw [List.pairwise_cons] at hsorted
    rw [replaceTokens, List.foldl_cons]
    rcases List.mem_cons.mp hmem with rfl | hmem
    · have hne : row.1.toList ≠ [] := fun hnil => himage.1 (hnil ▸ List.nil_infix)
      have hreplaced : replaceToken row.1.toList row = row.image := by
        have hself : replaceWord row.1.toList row.image (row.1.toList ++ []) =
            row.image ++ replaceWord row.1.toList row.image [] := replaceWord_append_self row.image hne []
        rw [List.append_nil, replaceWord_of_none _ hne (everyTail_nil _), List.append_nil] at hself
        exact hself
      rw [hreplaced]
      exact replaceTokens_of_absent himage.2
    · have habsent : ¬ first.1.toList <:+: row.1.toList := by
        intro h
        have hle : row.1.toList.length ≤ first.1.toList.length := by
          rw [String.length_toList, String.length_toList]
          exact hsorted.1 row hmem
        have hsame := h.eq_of_length_le hle
        exact hnodup.1 (String.toList_injective hsame ▸ List.mem_map_of_mem hmem)
      rw [replaceToken_of_absent habsent]
      exact ih hsorted.2 hnodup.2 hmem himage.2

/-- A token by itself is replaced by its image. -/
theorem substituted_self (shape : Marker.Shape) {tokens : List Row} {row : Row}
    (hnodup : (tokens.map Prod.fst).Nodup) (hmem : row ∈ tokens)
    (himage : ∀ other ∈ tokens, ¬ other.1.toList <:+: row.image) :
    substituted shape tokens row.1.toList = withoutLeftovers shape row.image := by
  have hperm : (byLength tokens).Perm tokens := List.mergeSort_perm ..
  rw [substituted, replaceTokens_self (pairwise_byLength tokens)
    ((hperm.map _).nodup_iff.mpr hnodup) (hperm.mem_iff.mpr hmem) fun other hother =>
      himage other (hperm.mem_iff.mp hother)]

section Marked

variable {shape : Marker.Shape} {tokens : List Row} {t : Text}

/-- Without the beginning of tokens there is nothing that looks like one. -/
theorem withoutLeftovers_of_unmarked (h : ¬ shape.lead.toList <:+: t) :
    withoutLeftovers shape t = t := by
  refine replaceEach_of_none _ fun s hs => ?_
  have hlead : after? shape.lead.toList s = none :=
    after?_eq_none_iff.mpr fun hp => h (List.infix_iff_prefix_suffix.mpr ⟨s, hp, hs⟩)
  rw [tokenLike?, hlead]
  rfl

variable (hlead : ∀ row ∈ tokens, shape.lead.toList <+: row.1.toList)

include hlead

/-- A text without the beginning of tokens stays as it is. -/
theorem substituted_of_unmarked (h : ¬ shape.lead.toList <:+: t) :
    substituted shape tokens t = t := by
  rw [substituted, replaceTokens_of_absent fun row hrow hinfix => ?_, withoutLeftovers_of_unmarked h]
  exact h ((hlead row (List.mem_mergeSort.mp hrow)).isInfix.trans hinfix)

/-- **A token** by itself becomes the reference to its path. -/
theorem substituted_token (hnodup : (tokens.map Prod.fst).Nodup) {token path : String}
    (hmem : (token, some path) ∈ tokens) (hpath : ¬ shape.lead.toList <:+: path.toList)
    (hopening : '\x7b' ∉ shape.lead.toList) (hclosing : '\x7d' ∉ shape.lead.toList) :
    substituted shape tokens token.toList = reference path := by
  have hne : ¬ shape.lead.toList <:+: [] := fun h =>
    hpath (h.trans List.nil_infix)
  have himage : ¬ shape.lead.toList <:+: reference path := by
    intro h
    have hparts : reference path = [] ++ '\x7b' :: ([] ++ '\x7b' :: (path.toList ++ '\x7d' ::
        ([] ++ '\x7d' :: []))) := by
      simp [reference]
    rw [hparts] at h
    have h := (infix_of_infix_append_cons h hopening).resolve_left hne
    have h := (infix_of_infix_append_cons h hopening).resolve_left hne
    have h := (infix_of_infix_append_cons h hclosing).resolve_left hpath
    exact (infix_of_infix_append_cons h hclosing).elim hne hne
  have hself := substituted_self shape hnodup hmem fun other hother hinfix =>
    himage ((hlead other hother).isInfix.trans hinfix)
  exact hself.trans (withoutLeftovers_of_unmarked himage)

end Marked

end Stencil.Template
