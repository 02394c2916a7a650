import Stencil.Proofs.Text.Scanning
import Stencil.Template.Lowering

/-!
# Passes over any text

What one pass does to a text, whatever the text is. `Passed` tells a pass as a walk from left to
right: a character at which nothing is recognised is kept, and what is recognised is lowered as a
whole. `passed_of_pass?` is **the pass as such a walk**, and `settle_keeps` is the induction over
all passes: what every walk over occurrences of some sort preserves is preserved by settling.

There is nothing to recognise in a text exactly if a pass over it comes to nothing
(`pass?_eq_none_iff`).
-/

namespace Stencil.Template

open Text

variable {α : Type} {m : Text.Matcher α} {lower : α → Text}

/-! ### Nothing to recognise -/

theorem found_eq_nil_iff {t : Text} :
    (Text.pieces m t).filterMap Piece.found? = [] ↔ ∀ s, s <:+ t → m s = none := by
  unfold Text.pieces
  constructor
  · intro h
    induction t with
    | nil =>
      intro s hs
      obtain rfl := List.suffix_nil.mp hs
      cases hm : m [] with
      | none => rfl
      | some f => simp [piecesFrom, hm, Piece.found?] at h
    | cons c cs ih =>
      cases hm : m (c :: cs) with
      | some f =>
        rw [piecesFrom, hm] at h
        dsimp only at h
        split at h <;> simp [Piece.found?] at h
      | none =>
        rw [piecesFrom, hm] at h
        intro s hs
        rcases List.suffix_cons_iff.mp hs with rfl | hs
        · exact hm
        · exact ih (by simpa [Piece.found?] using h) s hs
  · intro h
    induction t with
    | nil => simp [piecesFrom, h [] (List.suffix_refl _)]
    | cons c cs ih =>
      have hrest := ih fun s hs => h s (hs.trans (List.suffix_cons c cs))
      rw [piecesFrom, h _ (List.suffix_refl _)]
      simpa [Piece.found?] using hrest

/-- A pass comes to nothing exactly if nothing is recognised anywhere. -/
theorem pass?_eq_none_iff {t : Text} :
    pass? m lower t = none ↔ ∀ s, s <:+ t → m s = none := by
  rw [← found_eq_nil_iff, pass?]
  split
  · next h => simpa using h
  · next h => simpa using h

theorem settle_of_pass?_eq_none {t : Text} (h : pass? m lower t = none) (bound : ℕ) :
    settle m lower bound t = (t, []) := by
  cases bound with
  | zero => rfl
  | succ bound => rw [settle, h]

/-! ### One pass -/

/-- A matcher that takes something off the front of a text. -/
def Consumes (m : Text.Matcher α) : Prop :=
  ∀ t f rest, m t = some (f, rest) → ∃ x, x ≠ [] ∧ t = x ++ rest

/-- **One pass** from left to right: the text before it, the text behind it, and what is lowered. -/
inductive Passed (m : Text.Matcher α) (lower : α → Text) : Text → Text → List α → Prop where
  /-- The end of the text. -/
  | nil : Passed m lower [] [] []
  /-- A character at which nothing is recognised. -/
  | char {c : Char} {t t' : Text} {found : List α} (none : m (c :: t) = none)
      (rest : Passed m lower t t' found) : Passed m lower (c :: t) (c :: t') found
  /-- An occurrence. -/
  | hit {x t t' : Text} {f : α} {found : List α} (ne_nil : x ≠ [])
      (taken : m (x ++ t) = some (f, t)) (rest : Passed m lower t t' found) :
      Passed m lower (x ++ t) (lower f ++ t') (f :: found)

/-- The pieces of a text are those of a walk. -/
theorem passed_pieces (hm : Consumes m) (t : Text) :
    Passed m lower t ((Text.pieces m t).flatMap (Piece.text lower))
      ((Text.pieces m t).filterMap Piece.found?) := by
  -- an occurrence goes as a whole, so the recursion is on the length of what is left
  induction hlength : t.length using Nat.strong_induction_on generalizing t with
  | h length ih =>
    subst hlength
    cases hfound : m t with
    | none =>
      cases t with
      | nil =>
        have hnil : Text.pieces m [] = [] := by simp [Text.pieces, piecesFrom, hfound]
        rw [hnil]
        exact .nil
      | cons c cs =>
        have hpieces : Text.pieces m (c :: cs) = .char c :: Text.pieces m cs := by
          simp [Text.pieces, piecesFrom, hfound]
        rw [hpieces]
        exact .char hfound (ih cs.length (by simp) cs rfl)
    | some found =>
      obtain ⟨f, rest⟩ := found
      obtain ⟨x, hx, rfl⟩ := hm _ _ _ hfound
      have hlength : rest.length < (x ++ rest).length := by
        have := List.length_pos_of_ne_nil hx
        simp only [List.length_append]
        omega
      rw [pieces_append_of_some hx hfound]
      exact .hit hx hfound (ih rest.length hlength rest rfl)

theorem passed_of_pass? (hm : Consumes m) {t t' : Text} {now : List α}
    (h : pass? m lower t = some (t', now)) : Passed m lower t t' now := by
  rw [pass?] at h
  split at h
  · cases h
  · obtain ⟨rfl, rfl⟩ : _ = t' ∧ _ = now := by simpa using h
    exact passed_pieces hm t

/-- What is lowered in a pass is recognised somewhere in the text before it. -/
theorem Passed.exists_of_mem {t t' : Text} {found : List α} (h : Passed m lower t t' found) {f : α}
    (hf : f ∈ found) : ∃ s rest, s <:+ t ∧ m s = some (f, rest) := by
  induction h with
  | nil => simp at hf
  | @char c t t' found _ _ ih =>
    obtain ⟨s, rest, hs, hm⟩ := ih hf
    exact ⟨s, rest, hs.trans (List.suffix_cons c t), hm⟩
  | @hit x t t' g found _ taken _ ih =>
    obtain rfl | hf := List.mem_cons.mp hf
    · exact ⟨x ++ t, t, List.suffix_refl _, taken⟩
    · obtain ⟨s, rest, hs, hm⟩ := ih hf
      exact ⟨s, rest, hs.trans (List.suffix_append x t), hm⟩

/-- A word without the characters that occurrences begin with, before and behind the pass, starts
behind the pass where it started before. -/
theorem Passed.prefix_iff {c d : Char} (hm : ∀ t f rest, m t = some (f, rest) → t.head? = some c)
    (hlower : ∀ f, (lower f).head? = some d) {t t' : Text} {found : List α}
    (h : Passed m lower t t' found) {word : Text} (hc : c ∉ word) (hd : d ∉ word) :
    word <+: t' ↔ word <+: t := by
  induction h generalizing word with
  | nil => rfl
  | @char a t t' found _ _ ih =>
    cases word with
    | nil => simp
    | cons w ws =>
      rw [List.cons_prefix_cons, List.cons_prefix_cons]
      refine and_congr_right fun _ => ih ?_ ?_
      · exact fun h => hc (List.mem_cons_of_mem w h)
      · exact fun h => hd (List.mem_cons_of_mem w h)
  | @hit x t t' f found hx taken _ _ =>
    cases word with
    | nil => simp
    | cons w ws =>
      -- the occurrence and what it is lowered to begin with characters that the word does not have
      have hbefore : (x ++ t).head? = some c := hm _ _ _ taken
      have hbehind : (lower f ++ t').head? = some d := by
        rw [List.head?_append, hlower f]
        rfl
      have hnot : ∀ {b : Char} {u : Text}, b ∉ w :: ws → u.head? = some b → ¬ w :: ws <+: u := by
        rintro b u hb hhead ⟨rest, rfl⟩
        obtain rfl : w = b := by simpa using hhead
        exact hb (by simp)
      exact iff_of_false (hnot hd hbehind) (hnot hc hbefore)

/-! ### All passes -/

/-- **What every pass keeps, settling keeps**, for a property that may depend on what is lowered. -/
theorem settle_keeps (hm : Consumes m) {P : Text → Prop} {ok : α → Prop}
    (hpass : ∀ {t t' : Text} {found : List α}, Passed m lower t t' found → (∀ f ∈ found, ok f) →
      P t → P t') {bound : ℕ} {t : Text} (ht : P t)
    (hok : ∀ f ∈ (settle m lower bound t).2, ok f) : P (settle m lower bound t).1 := by
  -- the bound on the passes is the only thing that gets smaller, the text may grow
  induction bound generalizing t with
  | zero => exact ht
  | succ bound ih =>
    cases hnow : pass? m lower t with
    | none =>
      rw [settle_of_pass?_eq_none hnow]
      exact ht
    | some next =>
      obtain ⟨t', now⟩ := next
      rw [settle, hnow] at hok ⊢
      dsimp only at hok ⊢
      have hnext : P t' := hpass (passed_of_pass? hm hnow)
        (fun f hf => hok f (List.mem_append_left _ hf)) ht
      exact ih hnext fun f hf => hok f (List.mem_append_right _ hf)

/-- What is recognised in a text is lowered by the first pass. -/
theorem mem_settle_of_mem_findAll {t : Text} {f : α} (h : f ∈ findAll m t) (bound : ℕ) :
    f ∈ (settle m lower (bound + 1) t).2 := by
  have hnow : pass? m lower t = some ((Text.pieces m t).flatMap (Piece.text lower), findAll m t) := by
    have hne : ¬ (findAll m t).isEmpty = true := by simpa using List.ne_nil_of_mem h
    rw [pass?]
    exact if_neg hne
  rw [settle, hnow]
  exact List.mem_append_left _ h

/-- Settling goes on where it was stopped. -/
theorem settle_add (a b : ℕ) (t : Text) :
    settle m lower (a + b) t =
      ((settle m lower b (settle m lower a t).1).1,
        (settle m lower a t).2 ++ (settle m lower b (settle m lower a t).1).2) := by
  induction a generalizing t with
  | zero => simp [settle]
  | succ a ih =>
    rw [Nat.succ_add_eq_add_succ, Nat.add_succ]
    cases hnow : pass? m lower t with
    | none => simp only [settle_of_pass?_eq_none hnow, List.append_nil]
    | some next => simp only [settle, hnow, ih, List.append_assoc]

/-- Once a text has settled, more passes change nothing. -/
theorem settle_of_le {n bound : ℕ} {t : Text} (h : pass? m lower (settle m lower n t).1 = none)
    (hn : n ≤ bound) : settle m lower bound t = settle m lower n t := by
  obtain ⟨more, rfl⟩ := Nat.exists_eq_add_of_le hn
  rw [settle_add, settle_of_pass?_eq_none h, List.append_nil]

/-- Passes without a limit end where some limit is not reached. -/
theorem exists_settle_eq_of_settleAll? {t : Text} {result : Text × List α}
    (h : settleAll? m lower t = some result) : ∃ n, settle m lower n t = result := by
  refine settleAll?.partial_correctness m lower (fun t result => ∃ n, settle m lower n t = result)
    (fun rec ih t result h => ?_) t result h
  cases hnow : pass? m lower t with
  | none =>
    rw [hnow] at h
    exact ⟨0, Option.some.inj h⟩
  | some next =>
    obtain ⟨t', now⟩ := next
    rw [hnow] at h
    obtain ⟨⟨u, later⟩, hrec, heq⟩ := Option.bind_eq_some_iff.mp h
    obtain ⟨n, hn⟩ := ih t' (u, later) hrec
    refine ⟨n + 1, ?_⟩
    rw [settle, hnow]
    dsimp only
    rw [hn]
    exact Option.some.inj heq

theorem settleAll?_eq_some {n : ℕ} {t : Text} (h : pass? m lower (settle m lower n t).1 = none) :
    settleAll? m lower t = some (settle m lower n t) := by
  induction n generalizing t with
  | zero =>
    rw [settleAll?, show pass? m lower t = none from h]
    rfl
  | succ n ih =>
    rw [settleAll?]
    cases hnow : pass? m lower t with
    | none => rw [settle_of_pass?_eq_none hnow]
    | some next =>
      rw [settle, hnow] at h ⊢
      dsimp only at h ⊢
      rw [ih h]
      rfl

/-! ### Loops -/

/-- Lowering the loops of a text is settling them with some limit. -/
theorem exists_lowerLoops_eq (t : Text) : ∃ n, lowerLoops t = settle loop? lowerLoop n t := by
  rw [lowerLoops]
  dsimp only
  split
  · exact ⟨_, rfl⟩
  · cases hall : settleAll? loop? lowerLoop (settle loop? lowerLoop (t.length + 1) t).1 with
    | none => exact ⟨_, rfl⟩
    | some result =>
      obtain ⟨n, rfl⟩ := exists_settle_eq_of_settleAll? hall
      exact ⟨t.length + 1 + n, (settle_add (t.length + 1) n t).symm⟩

/-- **No limit.** However many passes it takes until no loop is left, lowering the loops makes them. -/
theorem lowerLoops_eq {n : ℕ} {t : Text}
    (h : pass? loop? lowerLoop (settle loop? lowerLoop n t).1 = none) :
    lowerLoops t = settle loop? lowerLoop n t := by
  rw [lowerLoops]
  dsimp only
  split
  · next hnear =>
    rcases Nat.le_total n (t.length + 1) with hn | hn
    · exact settle_of_le h hn
    · exact (settle_of_le hnear hn).symm
  · next now hnear =>
    rcases Nat.le_total n (t.length + 1) with hn | hn
    · rw [settle_of_le h hn, h] at hnear
      cases hnear
    · obtain ⟨more, rfl⟩ := Nat.exists_eq_add_of_le hn
      rw [settle_add (t.length + 1) more t] at h ⊢
      rw [settleAll?_eq_some h]
      rfl

/-- What every pass keeps, lowering the loops keeps. -/
theorem lowerLoops_keeps (hm : Consumes loop?) {P : Text → Prop} {ok : Loop → Prop}
    (hpass : ∀ {t t' : Text} {found : List Loop}, Passed loop? lowerLoop t t' found →
      (∀ l ∈ found, ok l) → P t → P t') {t : Text} (ht : P t) (hok : ∀ l ∈ (lowerLoops t).2, ok l) :
    P (lowerLoops t).1 := by
  obtain ⟨n, hn⟩ := exists_lowerLoops_eq t
  rw [hn] at hok ⊢
  exact settle_keeps hm hpass ht hok

/-! ### Notes -/

/-- A conditional is noted if its condition can be read. -/
theorem noteConditional_of_ok {c : Conditional}
    (h : checkReferences (c.condition.getD []) = .ok ()) (journal : Journal) :
    noteConditional c journal = (.ok (), journal ++ conditionalEvents c) := by
  have hread : Work.ofResult (readCondition c.condition) journal =
      (.ok (decodeCondition c.condition), journal) := by
    rw [Work.ofResult, readCondition, h]
    rfl
  exact Work.bind_of_ok hread

/-- A loop is noted if the names of its array and its item can be read. -/
theorem noteLoop_of_ok {l : Loop} (harray : checkReferences l.array = .ok ())
    (hitem : checkReferences (l.itemVar.getD []) = .ok ()) (journal : Journal) :
    noteLoop l journal = (.ok (), journal ++ [.loop]) := by
  have hread : ∀ {value : Text}, checkReferences value = .ok () →
      Work.ofResult (checkReferences value) journal = (.ok (), journal) := fun h =>
    congrArg (·, journal) h
  exact (Work.bind_of_ok (hread harray)).trans (Work.bind_of_ok (hread hitem))

/-- Notes that can be taken one by one can be taken together. -/
theorem forM_note {note : α → Work Unit} {found : List α}
    (h : ∀ f ∈ found, ∀ journal, ∃ journal', note f journal = (.ok (), journal')) (journal : Journal) :
    ∃ journal', found.forM note journal = (.ok (), journal') := by
  induction found generalizing journal with
  | nil => exact ⟨journal, rfl⟩
  | cons f fs ih =>
    obtain ⟨noted, hnoted⟩ := h f (by simp) journal
    obtain ⟨journal', hrest⟩ := ih (fun g hg => h g (by simp [hg])) noted
    exact ⟨journal', (Work.bind_of_ok hnoted).trans hrest⟩

/-! ### What is recognised -/

section Recognised

variable {t u v : Text}

theorem restAndBody?_append_of_not_mem {opening closing : Text} (h : '>' ∉ u) (v : Text) :
    restAndBody? opening closing (u ++ v) = restAndBody? opening closing v := by
  induction u with
  | nil => rfl
  | cons c cs ih =>
    simp only [List.mem_cons, not_or] at h
    rw [← ih h.2, List.cons_append, restAndBody?, restAndBody?, tagEnd?, if_neg (Ne.symm h.1)]

theorem eq_of_tagEnd? (h : tagEnd? t = some v) : ∃ u, t = u ++ ['>'] ++ v := by
  induction t with
  | nil => simp [tagEnd?] at h
  | cons c cs ih =>
    rw [tagEnd?] at h
    split_ifs at h with hc
    · obtain rfl : cs = v := by simpa using h
      exact ⟨[], by rw [hc]; rfl⟩
    · obtain ⟨u, rfl⟩ := ih h
      exact ⟨c :: u, by simp⟩

/-- What is read as an attribute ends with its value and a quote, which the value does not have. -/
theorem exists_of_attribute? {name value : Text} (h : attribute? name t = some (value, v)) :
    ∃ x, t = x ++ value ++ ['"'] ++ v ∧ '"' ∉ value := by
  simp only [attribute?, Option.bind_eq_bind, Option.bind_eq_some_iff] at h
  obtain ⟨behindBlanks, hblanks, behindName, hname, hvalue⟩ := h
  obtain ⟨rfl, hquote⟩ := quotedValue?_eq_some_iff.mp hvalue
  have hstart : behindBlanks <:+ t := by
    cases t with
    | nil => simp [blanks?] at hblanks
    | cons c cs =>
      rw [blanks?] at hblanks
      split_ifs at hblanks
      obtain rfl : cs.dropWhile isBlank = behindBlanks := by simpa using hblanks
      exact (List.dropWhile_suffix _).trans (List.suffix_cons c cs)
  have hmiddle : value ++ '"' :: v <:+ behindBlanks := ⟨_, (eq_append_of_after? hname).symm⟩
  obtain ⟨x, rfl⟩ := hmiddle.trans hstart
  exact ⟨x, by simp, hquote⟩

theorem exists_of_filledAttribute? {name value : Text}
    (h : filledAttribute? name t = some (value, v)) :
    ∃ x, t = x ++ value ++ ['"'] ++ v ∧ '"' ∉ value := by
  simp only [filledAttribute?, Option.bind_eq_bind, Option.bind_eq_some_iff, Prod.exists] at h
  obtain ⟨own, w, hattribute, h⟩ := h
  split_ifs at h
  obtain ⟨rfl, rfl⟩ : own = value ∧ w = v := by simpa using h
  exact exists_of_attribute? hattribute

/-- The rest of a tag and the body behind it are taken off the front of a text. -/
theorem exists_of_restAndBody? {opening closing body rest : Text}
    (h : restAndBody? opening closing t = some (body, rest)) :
    ∃ inside, t = inside ++ ['>'] ++ body ++ closing ++ rest := by
  rw [restAndBody?, Option.bind_eq_bind, Option.bind_eq_some_iff] at h
  obtain ⟨v, hend, hbody⟩ := h
  obtain ⟨inside, rfl⟩ := eq_of_tagEnd? hend
  exact ⟨inside, by rw [eq_of_bodyUntil? hbody]; simp⟩

/-- A body goes to the next closing tag and has no opening tag. -/
theorem absent_of_bodyUntil? {opening closing body rest : Text} (hopening : opening ≠ [])
    (hclosing : closing ≠ []) (h : bodyUntil? opening closing t = some (body, rest)) :
    ¬ opening <:+: body ∧ ¬ closing <:+: body := by
  -- a tag in the body would be one in the text
  suffices EveryTail (fun s => ¬ opening <+: s ∧ ¬ closing <+: s) body from
    ⟨not_infix_of_everyTail hopening (this.imp fun _ h => h.1),
      not_infix_of_everyTail hclosing (this.imp fun _ h => h.2)⟩
  induction t generalizing body with
  | nil => simp [bodyUntil?] at h
  | cons c cs ih =>
    rw [bodyUntil?] at h
    split at h
    · obtain ⟨rfl, -⟩ : [] = body ∧ _ = rest := by simpa using h
      trivial
    · next hafter =>
      split_ifs at h with hstarts
      obtain ⟨⟨b, r⟩, hb, heq⟩ := Option.map_eq_some_iff.mp h
      obtain ⟨rfl, rfl⟩ : c :: b = body ∧ r = rest := by simpa using heq
      have hfront : c :: b <+: c :: cs := by
        rw [eq_of_bodyUntil? hb, List.append_assoc]
        exact List.prefix_append (c :: b) _
      refine ⟨⟨fun hp => ?_, fun hp => ?_⟩, ih hb⟩
      · exact hstarts (startsWith_iff.mpr (hp.trans hfront))
      · exact after?_eq_none_iff.mp hafter (hp.trans hfront)

theorem absent_of_restAndBody? {body rest : Text}
    (h : restAndBody? ifOpening ifClosing t = some (body, rest)) :
    ¬ ifOpening <:+: body ∧ ¬ ifClosing <:+: body := by
  rw [restAndBody?, Option.bind_eq_bind, Option.bind_eq_some_iff] at h
  obtain ⟨v, -, hbody⟩ := h
  exact absent_of_bodyUntil? (by decide) (by decide) hbody

/-- What is recognised as a conditional begins and ends with its tags, and has no other one in its
body. -/
theorem exists_of_conditional? {c : Conditional} {rest : Text}
    (h : conditional? t = some (c, rest)) :
    ∃ inside, t = ifOpening ++ inside ++ ['>'] ++ c.body ++ ifClosing ++ rest ∧
      ¬ ifOpening <:+: c.body ∧ ¬ ifClosing <:+: c.body := by
  simp only [conditional?, Option.bind_eq_bind, Option.bind_eq_some_iff,
    Option.or_eq_some_iff] at h
  obtain ⟨u, hword, h⟩ := h
  obtain rfl := eq_append_of_after? hword
  rcases h with h | ⟨-, h⟩
  · simp only [conditionalWith?, Option.bind_eq_bind, Option.bind_eq_some_iff, Prod.exists,
      Option.some.injEq, Prod.mk.injEq] at h
    obtain ⟨condition, v, hattribute, body, behind, hrest, rfl, rfl⟩ := h
    obtain ⟨inside, rfl⟩ := exists_of_restAndBody? hrest
    obtain ⟨x, rfl, -⟩ := exists_of_attribute? hattribute
    exact ⟨x ++ condition ++ ['"'] ++ inside, by simp, absent_of_restAndBody? hrest⟩
  · simp only [conditionalWithout?, Option.bind_eq_bind, Option.bind_eq_some_iff, Prod.exists,
      Option.some.injEq, Prod.mk.injEq] at h
    obtain ⟨body, behind, hrest, rfl, rfl⟩ := h
    obtain ⟨inside, rfl⟩ := exists_of_restAndBody? hrest
    exact ⟨inside, by simp, absent_of_restAndBody? hrest⟩

theorem consumes_conditional? : Consumes conditional? := fun t c rest h => by
  obtain ⟨inside, rfl, -⟩ := exists_of_conditional? h
  exact ⟨ifOpening ++ inside ++ ['>'] ++ c.body ++ ifClosing, by simp, rfl⟩

/-- The names in what is recognised as a loop are in its opening tag, between quotes. -/
theorem exists_names_of_loop? {l : Loop} {rest : Text} (h : loop? t = some (l, rest)) :
    ∃ inside, t = eachOpening ++ inside ++ ['>'] ++ l.body ++ eachClosing ++ rest ∧
      '"' ∈ inside ∧ (l.array <:+: inside ∧ '"' ∉ l.array) ∧
      ∀ name ∈ l.itemVar, name <:+: inside ∧ '"' ∉ name := by
  simp only [loop?, Option.bind_eq_bind, Option.bind_eq_some_iff, Option.or_eq_some_iff,
    Prod.exists] at h
  obtain ⟨u, hword, array, w, harray, h⟩ := h
  obtain rfl := eq_append_of_after? hword
  obtain ⟨x, rfl, hquote⟩ := exists_of_filledAttribute? harray
  rcases h with h | ⟨-, h⟩
  · simp only [loopWith?, Option.bind_eq_bind, Option.bind_eq_some_iff, Prod.exists,
      Option.some.injEq, Prod.mk.injEq] at h
    obtain ⟨name, v, hname, body, behind, hrest, rfl, rfl⟩ := h
    obtain ⟨inside, rfl⟩ := exists_of_restAndBody? hrest
    obtain ⟨y, rfl, hnone⟩ := exists_of_filledAttribute? hname
    refine ⟨x ++ array ++ ['"'] ++ (y ++ name ++ ['"'] ++ inside), by simp, by simp,
      ⟨⟨x, ['"'] ++ (y ++ name ++ ['"'] ++ inside), by simp⟩, hquote⟩, fun own hown => ?_⟩
    obtain rfl : name = own := by simpa using hown
    exact ⟨⟨x ++ array ++ ['"'] ++ y, ['"'] ++ inside, by simp⟩, hnone⟩
  · simp only [loopWithout?, Option.bind_eq_bind, Option.bind_eq_some_iff, Prod.exists,
      Option.some.injEq, Prod.mk.injEq] at h
    obtain ⟨body, behind, hrest, rfl, rfl⟩ := h
    obtain ⟨inside, rfl⟩ := exists_of_restAndBody? hrest
    exact ⟨x ++ array ++ ['"'] ++ inside, by simp, by simp,
      ⟨⟨x, ['"'] ++ inside, by simp⟩, hquote⟩, by simp⟩

/-- What is recognised as a loop begins and ends with its tags. -/
theorem exists_of_loop? {l : Loop} {rest : Text} (h : loop? t = some (l, rest)) :
    ∃ inside, t = eachOpening ++ inside ++ ['>'] ++ l.body ++ eachClosing ++ rest := by
  obtain ⟨inside, ht, -⟩ := exists_names_of_loop? h
  exact ⟨inside, ht⟩

theorem consumes_loop? : Consumes loop? := fun t l rest h => by
  obtain ⟨inside, rfl⟩ := exists_of_loop? h
  exact ⟨eachOpening ++ inside ++ ['>'] ++ l.body ++ eachClosing, by simp, rfl⟩

end Recognised

end Stencil.Template
