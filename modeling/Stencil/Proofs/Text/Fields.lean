import Mathlib.Data.List.TakeWhile
import Stencil.Proofs.Text.Scanning
import Stencil.Text.Blank

/-!
# Fields and trimming

Splitting a text at a separator loses nothing: the fields joined by it are the text again
(`joinWith_splitAt`), so a character of the text is one of the separator or of a field. Trimming loses
white space only, and it does not matter whether a text is trimmed before its fields are, or not
(`map_trim_splitAt_trim`).
-/

namespace Stencil.Text

/-! ### Fields -/

section Fields

variable {separator : Text}

private theorem flatMap_piecesFrom_literal (h : separator ≠ []) (skip : ℕ) (t : Text) :
    (piecesFrom (literal separator) skip t).flatMap (Piece.text fun _ => separator) =
      t.drop skip := by
  induction t generalizing skip with
  | nil =>
    cases skip with
    | zero =>
      cases separator with
      | nil => exact absurd rfl h
      | cons c cs => rfl
    | succ skip => rfl
  | cons c cs ih =>
    cases skip with
    | succ skip => exact ih skip
    | zero =>
      cases hw : after? separator (c :: cs) with
      | none =>
        have hm : literal separator (c :: cs) = none := by simp [literal, hw]
        simpa [piecesFrom, hm, Piece.text] using ih 0
      | some rest =>
        have hm : literal separator (c :: cs) = some ((), rest) := by simp [literal, hw]
        have heq : c :: cs = separator ++ rest := eq_append_of_after? hw
        obtain ⟨s, ss, rfl⟩ := List.exists_cons_of_ne_nil h
        have hlen : (c :: cs).length - rest.length = ss.length + 1 := by
          rw [heq]
          simp
          omega
        obtain ⟨rfl, rfl⟩ : c = s ∧ cs = ss ++ rest := by simpa using heq
        simp only [piecesFrom, hm, hlen, List.flatMap_cons, Piece.text, ih]
        simp

/-- Before further texts, a separator stands behind the first one. -/
theorem joinWith_cons_of_ne_nil {t : Text} {ts : List Text} (h : ts ≠ []) :
    joinWith separator (t :: ts) = t ++ separator ++ joinWith separator ts := by
  cases ts with
  | nil => exact absurd rfl h
  | cons u us => rfl

private theorem joinWith_fieldsOf {α : Type} (ps : List (Piece α)) :
    joinWith separator (fieldsOf ps) = ps.flatMap (Piece.text fun _ => separator) := by
  induction ps with
  | nil => rfl
  | cons p ps ih =>
    cases p with
    | hit =>
      rw [fieldsOf, joinWith_cons_of_ne_nil (fieldsOf_ne_nil ps), ih]
      rfl
    | char c =>
      rw [List.flatMap_cons, ← ih, fieldsOf]
      cases hps : fieldsOf ps with
      | nil => exact absurd hps (fieldsOf_ne_nil ps)
      | cons field fields => cases fields <;> simp [joinWith, Piece.text]

/-- **Nothing is lost.** Fields joined by their separator are the text again. -/
theorem joinWith_splitAt (h : separator ≠ []) (t : Text) :
    joinWith separator (splitAt separator t) = t := by
  rw [splitAt, joinWith_fieldsOf, pieces, flatMap_piecesFrom_literal h, List.drop_zero]

/-- A character of joined texts is one of the separator or of a text. -/
theorem mem_joinWith {c : Char} {ts : List Text} (h : c ∈ joinWith separator ts) :
    c ∈ separator ∨ ∃ t ∈ ts, c ∈ t := by
  induction ts with
  | nil => simp [joinWith] at h
  | cons t ts ih =>
    by_cases hts : ts = []
    · subst hts
      exact .inr ⟨t, by simp, h⟩
    · rw [joinWith_cons_of_ne_nil hts] at h
      rcases List.mem_append.mp h with h | h
      · rcases List.mem_append.mp h with h | h
        · exact .inr ⟨t, by simp, h⟩
        · exact .inl h
      · rcases ih h with h | ⟨u, hu, h⟩
        · exact .inl h
        · exact .inr ⟨u, by simp [hu], h⟩

theorem mem_joinWith_of_mem {c : Char} {t : Text} {ts : List Text} (ht : t ∈ ts) (hc : c ∈ t) :
    c ∈ joinWith separator ts := by
  induction ts with
  | nil => simp at ht
  | cons u us ih =>
    by_cases hus : us = []
    · subst hus
      obtain rfl : t = u := by simpa using ht
      exact hc
    · rw [joinWith_cons_of_ne_nil hus]
      rcases List.mem_cons.mp ht with rfl | ht
      · simp [hc]
      · simp [ih ht]

/-- A character of a text is one of the separator or of a field. -/
theorem mem_splitAt (h : separator ≠ []) {c : Char} {t : Text} (hc : c ∈ t) :
    c ∈ separator ∨ ∃ field ∈ splitAt separator t, c ∈ field :=
  mem_joinWith (by rwa [joinWith_splitAt h])

/-- A character of a field is one of the text. -/
theorem mem_of_mem_splitAt (h : separator ≠ []) {c : Char} {t field : Text}
    (hfield : field ∈ splitAt separator t) (hc : c ∈ field) : c ∈ t := by
  rw [← joinWith_splitAt h t]
  exact mem_joinWith_of_mem hfield hc

end Fields

/-! ### Fields between separating characters -/

section SplitBy

variable {p : Char → Bool}

theorem splitBy_ne_nil (t : Text) : splitBy p t ≠ [] := by
  cases t with
  | nil => simp [splitBy]
  | cons c cs =>
    rw [splitBy]
    split
    · simp
    · split <;> simp

/-- A text without separators is one field. -/
theorem splitBy_of_forall {t : Text} (h : ∀ c ∈ t, p c = false) : splitBy p t = [t] := by
  induction t with
  | nil => rfl
  | cons c cs ih => simp [splitBy, h c (by simp), ih fun d hd => h d (by simp [hd])]

/-- A separating character cuts a text in two. -/
theorem splitBy_append {c : Char} (hc : p c = true) (u v : Text) :
    splitBy p (u ++ c :: v) = splitBy p u ++ splitBy p v := by
  induction u with
  | nil => simp [splitBy, hc]
  | cons d ds ih =>
    simp only [List.cons_append, splitBy, ih]
    by_cases hd : p d = true
    · rw [if_pos hd, if_pos hd, List.cons_append]
    · rw [if_neg hd, if_neg hd]
      obtain ⟨field, fields, hsplit⟩ := List.exists_cons_of_ne_nil (splitBy_ne_nil (p := p) ds)
      rw [hsplit]
      rfl

end SplitBy

/-! ### Trimming -/

section Trimming

variable {c : Char} {t : Text}

theorem mem_dropWhile {p : Char → Bool} (h : c ∈ t) (hc : p c = false) : c ∈ t.dropWhile p := by
  rw [← List.takeWhile_append_dropWhile (p := p) (l := t)] at h
  rcases List.mem_append.mp h with h | h
  · exact absurd (List.all_eq_true.mp List.all_takeWhile c h) (by simp [hc])
  · exact h

theorem mem_trim (h : c ∈ t) (hc : isBlank c = false) : c ∈ trim t := by
  rw [trim, trimRight, List.mem_reverse]
  exact mem_dropWhile (List.mem_reverse.mpr (mem_dropWhile h hc)) hc

/-- A text without white space stays as it is when trimmed. -/
theorem trim_of_forall (h : ∀ c ∈ t, isBlank c = false) : trim t = t := by
  have hdrop : ∀ {u : Text}, (∀ c ∈ u, isBlank c = false) → u.dropWhile isBlank = u := by
    intro u hu
    cases u with
    | nil => rfl
    | cons c cs => rw [List.dropWhile_cons, hu c (by simp), if_neg (by simp)]
  rw [trim, trimLeft, hdrop h, trimRight, hdrop fun c hc => h c (List.mem_reverse.mp hc),
    List.reverse_reverse]

/-- Trimming adds no characters. -/
theorem mem_of_mem_trim (h : c ∈ trim t) : c ∈ t := by
  rw [trim, trimRight, List.mem_reverse] at h
  exact (List.dropWhile_suffix _).subset
    (List.mem_reverse.mp ((List.dropWhile_suffix _).subset h))

end Trimming

/-! ### White space around fields -/

section Blanks


variable {separator u : Text}

private theorem pieces_append_left (hu : ∀ c ∈ u, c ∉ separator) (hne : separator ≠ []) (t : Text) :
    pieces (literal separator) (u ++ t) = u.map .char ++ pieces (literal separator) t :=
  pieces_append_of_none (everyTail_of_forall_mem fun c hc s => by
    refine literal_eq_none fun hp => hu c hc ?_
    obtain ⟨d, ds, rfl⟩ := List.exists_cons_of_ne_nil hne
    obtain rfl : d = c := (List.cons_prefix_cons.mp hp).1
    exact List.mem_cons_self)

private theorem literal_append {v : Text} (hv : ∀ c ∈ v, c ∉ separator) (s : Text) :
    literal separator (s ++ v) = (literal separator s).map fun found => (found.1, found.2 ++ v) := by
  cases h : after? separator s with
  | none =>
    have hnone : after? separator (s ++ v) = none := by
      refine after?_eq_none_iff.mpr fun hp => after?_eq_none_iff.mp h ?_
      cases v with
      | nil => rwa [List.append_nil] at hp
      | cons c v => exact prefix_of_prefix_append_cons hp (hv c List.mem_cons_self)
    simp [literal, h, hnone]
  | some rest =>
    rw [eq_append_of_after? h, List.append_assoc]
    simp [literal, after?_append]

private theorem pieces_literal_append_right (hu : ∀ c ∈ u, c ∉ separator) (hne : separator ≠ [])
    (t : Text) : pieces (literal separator) (t ++ u) = pieces (literal separator) t ++ u.map .char := by
  obtain ⟨d, ds, rfl⟩ := List.exists_cons_of_ne_nil hne
  refine piecesFrom_append_right rfl (everyTail_of_forall_mem fun c hc s => ?_)
    (literal_append hu) (Nat.zero_le _)
  refine literal_eq_none fun hp => hu c hc ?_
  obtain rfl : d = c := (List.cons_prefix_cons.mp hp).1
  exact List.mem_cons_self

private theorem fieldsOf_map_char_append {α : Type} (u : Text) (ps : List (Piece α)) :
    ∃ field fields, fieldsOf ps = field :: fields ∧
      fieldsOf (u.map .char ++ ps) = (u ++ field) :: fields := by
  obtain ⟨field, fields, h⟩ := List.exists_cons_of_ne_nil (fieldsOf_ne_nil ps)
  refine ⟨field, fields, h, ?_⟩
  induction u with
  | nil => exact h
  | cons c cs ih => simp [fieldsOf, ih]

private theorem fieldsOf_append_map_char {α : Type} (u : Text) (ps : List (Piece α)) :
    ∃ fields field, fieldsOf ps = fields ++ [field] ∧
      fieldsOf (ps ++ u.map .char) = fields ++ [field ++ u] := by
  induction ps with
  | nil =>
    obtain ⟨field, fields, h, happend⟩ := fieldsOf_map_char_append u ([] : List (Piece α))
    obtain ⟨rfl, rfl⟩ : [] = field ∧ [] = fields := by simpa [fieldsOf] using h
    exact ⟨[], [], rfl, by simpa using happend⟩
  | cons p ps ih =>
    obtain ⟨fields, field, h, happend⟩ := ih
    cases p with
    | hit => exact ⟨[] :: fields, field, by simp [fieldsOf, h], by simp [fieldsOf, happend]⟩
    | char c =>
      cases fields with
      | nil => exact ⟨[], c :: field, by simp [fieldsOf, h], by simp [fieldsOf, happend]⟩
      | cons f fs => exact ⟨(c :: f) :: fs, field, by simp [fieldsOf, h], by simp [fieldsOf, happend]⟩

/-- A text in which no separator comes is one field. -/
theorem splitAt_of_absent (hne : separator ≠ []) (h : ¬ separator <:+: u) :
    splitAt separator u = [u] := by
  have hnone : EveryTail (fun s => literal separator (s ++ []) = none) u :=
    (everyTail_of_absent h).imp fun s hs => literal_eq_none (by rwa [List.append_nil])
  have hempty : pieces (literal separator) [] = [] := by
    cases separator with
    | nil => exact absurd rfl hne
    | cons d ds => rfl
  have hpieces := pieces_append_of_none hnone
  obtain ⟨field, fields, hfields, happend⟩ := fieldsOf_map_char_append u ([] : List (Piece Unit))
  obtain ⟨rfl, rfl⟩ : [] = field ∧ [] = fields := by simpa [fieldsOf] using hfields
  rw [List.append_nil, hempty] at hpieces
  rw [splitAt, hpieces, happend, List.append_nil]

/-- A text without the characters of the separator belongs to the first field behind it. -/
theorem exists_splitAt_append (hne : separator ≠ []) (hu : ∀ c ∈ u, c ∉ separator) (t : Text) :
    ∃ field fields, splitAt separator t = field :: fields ∧
      splitAt separator (u ++ t) = (u ++ field) :: fields := by
  obtain ⟨field, fields, hfields, happend⟩ :=
    fieldsOf_map_char_append u (pieces (literal separator) t)
  exact ⟨field, fields, hfields, by rw [splitAt, pieces_append_left hu hne, happend]⟩

/-- The first field goes to the place where the text is cut at the separator. -/
theorem splitAt_of_cut? (hne : separator ≠ []) {t before rest : Text}
    (h : cut? separator t = some (before, rest)) :
    splitAt separator t = before :: splitAt separator rest := by
  have hnone : EveryTail (fun s => literal separator (s ++ (separator ++ rest)) = none) before :=
    (everyTail_of_cut? h).imp fun s hs => literal_eq_none hs
  have htaken : literal separator (separator ++ rest) = some ((), rest) := by
    rw [literal, after?_append, Option.map_some]
  have hpieces := pieces_append_of_none hnone
  rw [pieces_append_of_some hne htaken] at hpieces
  obtain ⟨field, fields, hfields, happend⟩ :=
    fieldsOf_map_char_append before (.hit () :: pieces (literal separator) rest)
  obtain ⟨rfl, rfl⟩ := List.cons.inj hfields
  rw [eq_of_cut? h, List.append_assoc, splitAt, hpieces, happend, List.append_nil, splitAt]

/-- A field comes in the text, and no separator comes in it. -/
theorem infix_of_mem_splitAt (hne : separator ≠ []) {t field : Text}
    (h : field ∈ splitAt separator t) : field <:+: t ∧ ¬ separator <:+: field := by
  -- the rest behind a separator is shorter
  induction hlength : t.length using Nat.strong_induction_on generalizing t with
  | h length ih =>
    subst hlength
    cases hcut : cut? separator t with
    | none =>
      have habsent : ¬ separator <:+: t := fun hsep => by
        have hhas := has_iff.mpr hsep
        rw [has, hcut] at hhas
        cases hhas
      rw [splitAt_of_absent hne habsent, List.mem_singleton] at h
      subst h
      exact ⟨List.infix_refl _, habsent⟩
    | some found =>
      obtain ⟨before, rest⟩ := found
      have hparts : t = before ++ separator ++ rest := eq_of_cut? hcut
      rw [splitAt_of_cut? hne hcut] at h
      rcases List.mem_cons.mp h with rfl | h
      · exact ⟨⟨[], separator ++ rest, by simp [hparts]⟩, absent_of_cut? hne hcut⟩
      · have hshorter : rest.length < t.length := by
          have hpos := List.length_pos_of_ne_nil hne
          rw [hparts, List.length_append, List.length_append]
          omega
        obtain ⟨hin, habsent⟩ := ih rest.length hshorter h rfl
        exact ⟨hin.trans ⟨before ++ separator, [], by simp [hparts]⟩, habsent⟩

/-- A field ends at the separator. -/
theorem splitAt_append_separator (hne : separator ≠ []) (hu : ∀ c ∈ u, c ∉ separator) (t : Text) :
    splitAt separator (u ++ (separator ++ t)) = u :: splitAt separator t := by
  refine splitAt_of_cut? hne (cut?_append (everyTail_of_split fun before c after hsplit hp => ?_))
  obtain ⟨d, ds, rfl⟩ := List.exists_cons_of_ne_nil hne
  obtain rfl : d = c := (List.cons_prefix_cons.mp hp).1
  exact hu d (by simp [hsplit]) List.mem_cons_self

/-- Fields without the characters of the separator are split again when they are joined. -/
theorem splitAt_joinWith (hne : separator ≠ []) {ts : List Text} (hts : ts ≠ [])
    (h : ∀ t ∈ ts, ∀ c ∈ t, c ∉ separator) : splitAt separator (joinWith separator ts) = ts := by
  induction ts with
  | nil => exact absurd rfl hts
  | cons t ts ih =>
    have ht := h t (by simp)
    by_cases hrest : ts = []
    · subst hrest
      obtain ⟨d, ds, hsep⟩ := List.exists_cons_of_ne_nil hne
      have hd : d ∈ separator := by simp [hsep]
      exact splitAt_of_absent hne fun hwithin => ht d (hwithin.subset hd) hd
    · rw [joinWith_cons_of_ne_nil hrest, List.append_assoc, splitAt_append_separator hne ht,
        ih hrest fun u hu => h u (by simp [hu])]

/-- The last character of a trimmed text is no white space. -/
theorem isBlank_getLast?_trim (t : Text) : ∀ c ∈ (trim t).getLast?, isBlank c = false := by
  intro c hc
  rw [trim, trimRight, List.getLast?_reverse] at hc
  have hall := List.head?_dropWhile_not isBlank (trimLeft t).reverse
  rw [Option.mem_def.mp hc] at hall
  simpa using hall

/-- White space in front is trimmed off. -/
theorem trim_append_left (h : ∀ c ∈ u, isBlank c = true) (t : Text) : trim (u ++ t) = trim t := by
  rw [trim, trimLeft, List.dropWhile_append_of_pos h, trim, trimLeft]

/-- White space behind is trimmed off. -/
theorem trim_append_right (h : ∀ c ∈ u, isBlank c = true) (t : Text) : trim (t ++ u) = trim t := by
  have hright : ∀ t : Text, trimRight (t ++ u) = trimRight t := fun t => by
    rw [trimRight, List.reverse_append,
      List.dropWhile_append_of_pos fun c hc => h c (List.mem_reverse.mp hc), trimRight]
  rw [trim, trimLeft, List.dropWhile_append]
  split
  · next hempty =>
    have hnil : u.dropWhile isBlank = [] := List.dropWhile_eq_nil_iff.mpr h
    rw [List.isEmpty_iff] at hempty
    rw [hnil, trim, trimLeft, hempty]
  · rw [hright, trim, trimLeft]

/-- A text is what trimming leaves of it, between white space. -/
theorem exists_eq_trim (t : Text) : ∃ l r, t = l ++ trim t ++ r ∧ (∀ c ∈ l, isBlank c = true) ∧
    ∀ c ∈ r, isBlank c = true := by
  refine ⟨t.takeWhile isBlank, ((trimLeft t).reverse.takeWhile isBlank).reverse, ?_,
    List.all_eq_true.mp List.all_takeWhile,
    fun c hc => List.all_eq_true.mp List.all_takeWhile c (List.mem_reverse.mp hc)⟩
  rw [trim, trimRight, List.append_assoc, ← List.reverse_append, List.takeWhile_append_dropWhile,
    List.reverse_reverse, trimLeft, List.takeWhile_append_dropWhile]

/-- A suffix of a trimmed text has white space at its front only. -/
theorem exists_eq_trim_of_suffix {s : Text} (h : s <:+ trim t) :
    ∃ l, s = l ++ trim s ∧ ∀ c ∈ l, isBlank c = true := by
  obtain ⟨l, r, hs, hl, hr⟩ := exists_eq_trim s
  obtain rfl : r = [] := by
    by_contra hne
    obtain ⟨u, hu⟩ := h
    have hlast : (trim t).getLast? = some (r.getLast hne) := by
      rw [← hu, hs, ← List.append_assoc, List.getLast?_append, List.getLast?_eq_some_getLast hne]
      rfl
    have hblank := isBlank_getLast?_trim t _ hlast
    simp [hr _ (List.getLast_mem hne)] at hblank
  exact ⟨l, by rwa [List.append_nil] at hs, hl⟩

/-- A trimmed text comes in the text. -/
theorem trim_within (t : Text) : trim t <:+: t := by
  obtain ⟨l, r, ht, -, -⟩ := exists_eq_trim t
  exact ⟨l, r, ht.symm⟩

/-- The first character of a trimmed text is no white space. -/
theorem isBlank_head?_trim (t : Text) : ∀ c ∈ (trim t).head?, isBlank c = false := by
  intro c hc
  have hstart : trim t <+: trimLeft t := by
    rw [← List.reverse_suffix, trim, trimRight, List.reverse_reverse]
    exact List.dropWhile_suffix _
  obtain ⟨rest, hrest⟩ := hstart
  have hall := List.head?_dropWhile_not isBlank t
  rw [← trimLeft, ← hrest, List.head?_append, Option.mem_def.mp hc] at hall
  simpa using hall

/-- There is no white space around a trimmed text. -/
theorem trim_trim (t : Text) : trim (trim t) = trim t := by
  obtain ⟨l, r, ht, hl, hr⟩ := exists_eq_trim (trim t)
  obtain rfl : l = [] := by
    cases l with
    | nil => rfl
    | cons c l =>
      have hblank := isBlank_head?_trim t c (by rw [ht]; simp)
      simp [hl c (by simp)] at hblank
  obtain rfl : r = [] := by
    by_contra hne
    have hblank := isBlank_getLast?_trim t (r.getLast hne)
      (by rw [ht, List.getLast?_append, List.getLast?_eq_some_getLast hne]; rfl)
    simp [hr _ (List.getLast_mem hne)] at hblank
  simpa using ht.symm

/-- The fields of a trimmed text are those of the text, but for white space around them. -/
theorem map_trim_splitAt_trim (hne : separator ≠ []) (hblank : ∀ c ∈ separator, isBlank c = false)
    (t : Text) : (splitAt separator (trim t)).map trim = (splitAt separator t).map trim := by
  obtain ⟨l, r, ht, hl, hr⟩ := exists_eq_trim t
  have hnot : ∀ {w : Text}, (∀ c ∈ w, isBlank c = true) → ∀ c ∈ w, c ∉ separator :=
    fun hw c hc hmem => absurd (hw c hc) (by simp [hblank c hmem])
  have hpieces : pieces (literal separator) t =
      l.map .char ++ (pieces (literal separator) (trim t) ++ r.map .char) := by
    rw [← pieces_literal_append_right (hnot hr) hne]
    have hleft := pieces_append_left (hnot hl) hne (trim t ++ r)
    rwa [← List.append_assoc, ← ht] at hleft
  obtain ⟨fields, field, hfields, hright⟩ :=
    fieldsOf_append_map_char r (pieces (literal separator) (trim t))
  obtain ⟨first, rest, hfirst, hleft⟩ := fieldsOf_map_char_append l
    (pieces (literal separator) (trim t) ++ r.map .char)
  have htail : (fields ++ [field ++ r]).map trim = (fields ++ [field]).map trim := by
    simp [trim_append_right hr]
  rw [splitAt, splitAt, hpieces, hleft, List.map_cons, trim_append_left hl, ← List.map_cons,
    ← hfirst, hright, htail, hfields]

/-- What does not see white space around the fields does not see it around the text. -/
theorem map_splitAt_trim {β : Type} {f : Text → β} (hf : ∀ t, f (trim t) = f t)
    (hne : separator ≠ []) (hblank : ∀ c ∈ separator, isBlank c = false) (t : Text) :
    (splitAt separator (trim t)).map f = (splitAt separator t).map f := by
  have hmap : ∀ l : List Text, l.map f = (l.map trim).map f := fun l => by
    rw [List.map_map]
    exact List.map_congr_left fun t _ => (hf t).symm
  rw [hmap, map_trim_splitAt_trim hne hblank, ← hmap]

end Blanks

end Stencil.Text
