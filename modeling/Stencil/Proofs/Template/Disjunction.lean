import Stencil.Proofs.Template.Selection

/-!
# Conditions with both signs

A condition is a chain of conjuncts with signs between them (`Chain`). Evaluation splits it at `||`
first, and each alternative at `&&`; for its blocks it is split at `&&` only, and what lies between is
kept as the condition of a block, with every `||` in it. So both group the same chain, each by one of
the signs (`Chain.groups`).

The main statement is `lowerConditional_mixed`: **the blocks show a body if every group between `&&` has
a true conjunct.** Then the condition is true, but it may be true as well where the blocks hide the body,
as `a && b || c` is for `c` alone (`lowerConditional_mixed_ne`). It is one block with the whole
condition exactly if there is no `&&`, and then it shows what evaluation says.
-/

namespace Stencil.Condition

open Text Template

/-! ### Chains -/

/-- A sign between two conjuncts. -/
inductive Sign where
  /-- Both. -/
  | and
  /-- Either. -/
  | or
  deriving DecidableEq, Repr

/-- A sign as it is written. -/
def Sign.text : Sign → Text
  | and => andSign
  | or => orSign

/-- The other sign. -/
def Sign.other : Sign → Sign
  | and => or
  | or => and

/-- **A condition** as its conjuncts with the signs between them. -/
inductive Chain where
  /-- The last conjunct. -/
  | last (conjunct : Text)
  /-- A conjunct before a sign. -/
  | cons (conjunct : Text) (sign : Sign) (rest : Chain)
  deriving DecidableEq, Repr

namespace Chain

/-- The text of a condition. -/
def written : Chain → Text
  | last x => x
  | cons x s r => x ++ (s.text ++ r.written)

/-- What holds of every conjunct. -/
def Every (p : Text → Prop) : Chain → Prop
  | last x => p x
  | cons x _ r => p x ∧ r.Every p

/-- The conjuncts in groups that end at a sign. -/
def groups (sign : Sign) : Chain → List (List Text)
  | last x => [[x]]
  | cons x s r => if s = sign then [x] :: r.groups sign else (r.groups sign).modifyHead (x :: ·)

/-- A conjunct without the characters of signs. -/
def IsPlain (x : Text) : Prop := '&' ∉ x ∧ '|' ∉ x

variable {sign : Sign} {k : Chain} {p q : Text → Prop}

theorem Every.imp (h : k.Every p) (hpq : ∀ x, p x → q x) : k.Every q := by
  induction k with
  | last x => exact hpq x h
  | cons x s r ih => exact ⟨hpq x h.1, ih h.2⟩

/-- There is a first group, and no group is empty. -/
theorem groups_ne_nil (sign : Sign) (k : Chain) : k.groups sign ≠ [] ∧ ∀ g ∈ k.groups sign, g ≠ [] := by
  induction k with
  | last x => simp [groups]
  | cons x s r ih =>
    obtain ⟨hne, hmem⟩ := ih
    rw [groups]
    split_ifs
    · exact ⟨by simp, List.forall_mem_cons.mpr ⟨by simp, hmem⟩⟩
    · obtain ⟨g, gs, hgs⟩ := List.exists_cons_of_ne_nil hne
      rw [hgs] at hmem ⊢
      exact ⟨by simp,
        List.forall_mem_cons.mpr ⟨by simp, fun h hh => hmem h (List.mem_cons_of_mem g hh)⟩⟩

/-- The groups have the conjuncts of the chain. -/
theorem Every.groups (h : k.Every p) (sign : Sign) : ∀ g ∈ k.groups sign, ∀ x ∈ g, p x := by
  induction k with
  | last x =>
    have hx : p x := h
    simpa [Chain.groups] using hx
  | cons x s r ih =>
    obtain ⟨hx, hr⟩ := h
    have hrest := ih hr
    rw [Chain.groups]
    split_ifs
    · exact List.forall_mem_cons.mpr ⟨List.forall_mem_singleton.mpr hx, hrest⟩
    · obtain ⟨g, gs, hgs⟩ := List.exists_cons_of_ne_nil (groups_ne_nil sign r).1
      rw [hgs] at hrest ⊢
      obtain ⟨hg, hgs⟩ := List.forall_mem_cons.mp hrest
      exact List.forall_mem_cons.mpr ⟨List.forall_mem_cons.mpr ⟨hx, hg⟩, hgs⟩

/-- A plain conjunct, or the other sign, has no character of a sign. -/
private theorem not_mem_sign {x : Text} (h : IsPlain x) (sign : Sign) :
    ∀ c ∈ x, c ∉ sign.text := by
  intro c hc hsign
  cases sign with
  | and =>
    obtain rfl : c = '&' := by simpa [Sign.text, andSign] using hsign
    exact h.1 hc
  | or =>
    obtain rfl : c = '|' := by simpa [Sign.text, orSign] using hsign
    exact h.2 hc

private theorem text_ne_nil (sign : Sign) : sign.text ≠ [] := by
  cases sign <;> decide

private theorem not_mem_other (sign : Sign) : ∀ c ∈ sign.other.text, c ∉ sign.text := by
  cases sign <;> decide

/-- **Splitting.** The text of a chain is split into the texts of its groups. -/
theorem splitAt_written (h : k.Every IsPlain) (sign : Sign) :
    splitAt sign.text k.written = (k.groups sign).map (joinWith sign.other.text) := by
  have hne := text_ne_nil sign
  induction k with
  | last x =>
    obtain ⟨c, cs, hsign⟩ := List.exists_cons_of_ne_nil hne
    have habsent : ¬ sign.text <:+: x := fun hwithin =>
      not_mem_sign h sign c (hwithin.subset (by simp [hsign])) (by simp [hsign])
    exact splitAt_of_absent hne habsent
  | cons x s r ih =>
    obtain ⟨hx, hr⟩ := h
    rw [written, groups]
    split_ifs with hs
    · rw [hs, splitAt_append_separator hne (not_mem_sign hx sign), ih hr]
      rfl
    · -- the conjunct and the other sign belong to the first group behind them
      obtain rfl : s = sign.other := by
        cases s <;> cases sign <;> first | rfl | exact absurd rfl hs
      have hout : ∀ c ∈ x ++ sign.other.text, c ∉ sign.text := fun c hc =>
        (List.mem_append.mp hc).elim (not_mem_sign hx sign c) (not_mem_other sign c)
      obtain ⟨field, fields, hfields, happend⟩ := exists_splitAt_append hne hout r.written
      obtain ⟨hgroups, hmem⟩ := groups_ne_nil sign r
      obtain ⟨g, gs, hgs⟩ := List.exists_cons_of_ne_nil hgroups
      rw [ih hr, hgs, List.map_cons] at hfields
      obtain ⟨rfl, rfl⟩ := List.cons.inj hfields
      obtain ⟨y, ys, rfl⟩ := List.exists_cons_of_ne_nil (hmem g (by simp [hgs]))
      rw [← List.append_assoc, happend, hgs]
      rfl

/-- The conjuncts of a group between `&&` are its alternatives. -/
theorem alternatives_group (h : k.Every IsPlain) {g : List Text} (hg : g ∈ k.groups .and) :
    alternatives (joinWith orSign g) = g :=
  splitAt_joinWith (text_ne_nil .or) ((groups_ne_nil .and k).2 g hg) fun x hx =>
    not_mem_sign (h.groups .and g hg x hx) .or

/-! ### Truth -/

section Truth

variable (data : Value)

/-- A condition is true if all conjuncts of some group between `||` are. -/
theorem evaluateText_written (h : k.Every IsPlain) :
    evaluateText data k.written = (k.groups .or).any fun g => g.all (evaluateConjunct data) := by
  have hsplit : alternatives k.written = (k.groups .or).map (joinWith andSign) :=
    splitAt_written h .or
  rw [evaluateText, hsplit, List.any_map, Bool.eq_iff_iff, List.any_eq_true, List.any_eq_true]
  refine exists_congr fun g => and_congr_right fun hg => ?_
  have hconjuncts : conjuncts (joinWith andSign g) = g :=
    splitAt_joinWith (text_ne_nil .and) ((groups_ne_nil .or k).2 g hg) fun x hx =>
      not_mem_sign (h.groups .or g hg x hx) .and
  rw [Function.comp_apply, hconjuncts]

/-- A group between `&&` is true if some conjunct of it is. -/
theorem evaluateText_group (h : k.Every IsPlain) {g : List Text} (hg : g ∈ k.groups .and) :
    evaluateText data (joinWith orSign g) = g.any (evaluateConjunct data) := by
  have hplain := h.groups .and g hg
  rw [evaluateText, alternatives_group h hg, Bool.eq_iff_iff, List.any_eq_true, List.any_eq_true]
  refine exists_congr fun x => and_congr_right fun hx => ?_
  have hsingle : conjuncts x = [x] :=
    splitAt_joinWith (text_ne_nil .and) (List.cons_ne_nil x [])
      (List.forall_mem_singleton.mpr (not_mem_sign (hplain x hx) .and))
  rw [hsingle, List.all_cons, List.all_nil, Bool.and_true]

end Truth

/-- **Groups.** If every group between `&&` has a true conjunct, some group between `||` has no other
ones. -/
theorem any_all_of_all_any (v : Text → Bool) (h : (k.groups .and).all (·.any v) = true) :
    (k.groups .or).any (·.all v) = true := by
  induction k with
  | last x => simpa [groups] using h
  | cons x s r ih =>
    cases s with
    | and =>
      -- a true conjunct before `&&` joins the first group behind it
      simp only [groups, if_true, List.all_cons, List.any_cons, List.any_nil, Bool.or_false,
        Bool.and_eq_true] at h
      obtain ⟨hx, hrest⟩ := h
      have hrest := ih hrest
      obtain ⟨g, gs, hgs⟩ := List.exists_cons_of_ne_nil (groups_ne_nil .or r).1
      rw [hgs] at hrest
      simpa [groups, hgs, hx] using hrest
    | or =>
      -- the group of a conjunct before `||` is its own, and it is not needed if it is false
      obtain ⟨g, gs, hgs⟩ := List.exists_cons_of_ne_nil (groups_ne_nil .and r).1
      rw [hgs] at ih
      simp only [groups, hgs, List.modifyHead_cons, if_true, reduceCtorEq, if_false, List.all_cons,
        List.any_cons, List.all_nil, Bool.and_eq_true, Bool.or_eq_true, Bool.and_true] at h ih ⊢
      obtain ⟨hx | hg, hrest⟩ := h
      · exact .inl hx
      · exact .inr (ih ⟨hg, hrest⟩)

/-! ### The chain of a condition -/

/-- One condition behind another. -/
def append (sign : Sign) : Chain → Chain → Chain
  | last x, r => cons x sign r
  | cons x s k, r => cons x s (k.append sign r)

theorem written_append (sign : Sign) (k r : Chain) :
    (k.append sign r).written = k.written ++ (sign.text ++ r.written) := by
  induction k with
  | last x => rfl
  | cons x s k ih => simp [append, written, ih]

theorem Every.append (hk : k.Every p) {r : Chain} (hr : r.Every p) (sign : Sign) :
    (k.append sign r).Every p := by
  induction k with
  | last x => exact ⟨hk, hr⟩
  | cons x s k ih => exact ⟨hk.1, ih hk.2⟩

/-- Conditions that are joined are one. -/
private theorem exists_written_joinWith (sign : Sign) {ts : List Text} (hts : ts ≠ [])
    (h : ∀ t ∈ ts, ∃ k : Chain, k.written = t ∧ k.Every p) :
    ∃ k : Chain, k.written = joinWith sign.text ts ∧ k.Every p := by
  induction ts with
  | nil => exact absurd rfl hts
  | cons t ts ih =>
    obtain ⟨k, hk, hevery⟩ := h t (by simp)
    by_cases hrest : ts = []
    · subst hrest
      exact ⟨k, hk, hevery⟩
    · obtain ⟨r, hr, hall⟩ := ih hrest fun u hu => h u (by simp [hu])
      refine ⟨k.append sign r, ?_, hevery.append hall sign⟩
      rw [written_append, hk, hr, joinWith_cons_of_ne_nil hrest, List.append_assoc]

/-- A condition that can be put into a template is a chain of conjuncts with usable terms. -/
theorem exists_written {t c : Text} (hvalid : validateText t = .ok c) :
    ∃ k : Chain, k.written = c ∧ k.Every fun x => isTerm (term x) = true := by
  obtain ⟨-, -, hterms⟩ := eq_trim_of_validateText hvalid
  rw [← joinWith_splitAt (text_ne_nil .or) c]
  refine exists_written_joinWith .or (fieldsOf_ne_nil _) fun alternative halternative => ?_
  rw [← joinWith_splitAt (text_ne_nil .and) alternative]
  refine exists_written_joinWith .and (fieldsOf_ne_nil _) fun x hx => ?_
  exact ⟨last x, rfl, hterms _ (List.mem_flatMap.mpr ⟨alternative, halternative,
    List.mem_map_of_mem hx⟩)⟩

/-- There is no sign in a conjunct with a usable term. -/
theorem isPlain_of_isTerm {x : Text} (h : isTerm (term x) = true) : IsPlain x := by
  have hout : ∀ {c : Char}, isBlank c = false → c ≠ '!' → isTermChar c = false → c ∉ x := by
    intro c hblank hsign hchar hmem
    refine not_mem_of_isTerm hchar h (mem_trim (mem_dropWhile (mem_trim hmem hblank) ?_) hblank)
    simpa using hsign
  exact ⟨hout (by decide) (by decide) (by decide), hout (by decide) (by decide) (by decide)⟩

end Chain

end Stencil.Condition

namespace Stencil.Template

open Text Condition

/-! ### Blocks with conditions -/

/-- The truth of the condition of a block, as evaluation has it, in place of the value at a path. -/
def verdict (data : Value) : List (Option Text × Value) → Text → Value :=
  fun _ condition => .bool (evaluateText data condition)

section Mixed

variable {t condition : Text}

/-- The parts of a condition between `&&` are those of its blocks, trimmed, with their conjuncts. -/
private theorem exists_groups (hvalid : validateText t = .ok condition) :
    ∃ k : Chain, (k.written = condition ∧ k.Every fun x => isTerm (term x) = true) ∧
      splitConjuncts condition = (k.groups .and).map fun g => trim (joinWith orSign g) := by
  obtain ⟨k, rfl, hterms⟩ := Chain.exists_written hvalid
  refine ⟨k, ⟨rfl, hterms⟩, ?_⟩
  have hsplit : conjuncts k.written = (k.groups .and).map (joinWith orSign) :=
    Chain.splitAt_written (hterms.imp fun _ => Chain.isPlain_of_isTerm) .and
  rw [splitConjuncts, hsplit, List.map_map]
  rfl

/-- **A block** shows its body exactly if its part of the condition is true. -/
theorem shows_verdict (hvalid : validateText t = .ok condition) (data : Value) {part : Text}
    (hpart : part ∈ splitConjuncts condition) :
    shows (verdict data) [] (conjunctPath part).1 (conjunctPath part).2 = evaluateText data part := by
  by_cases hor : has orSign part = true
  · -- the part itself is the condition of the block
    rw [conjunctPath, if_pos hor]
    exact Bool.bne_false _
  · -- the part is a single conjunct, with its term as the condition of the block
    obtain ⟨k, ⟨rfl, hterms⟩, hparts⟩ := exists_groups hvalid
    rw [hparts] at hpart
    obtain ⟨g, hg, rfl⟩ := List.mem_map.mp hpart
    have hplain : k.Every Chain.IsPlain := hterms.imp fun _ => Chain.isPlain_of_isTerm
    obtain ⟨x, rfl⟩ : ∃ x, g = [x] := by
      have hsplit := Chain.alternatives_group hplain hg
      have hlength := congrArg List.length
        (map_trim_splitAt_trim (show orSign ≠ [] by decide) (by decide) (joinWith orSign g))
      rw [has_iff] at hor
      change ((alternatives _).map trim).length = ((alternatives _).map trim).length at hlength
      rw [alternatives_of_absent hor, hsplit, List.length_map, List.length_map] at hlength
      exact List.length_eq_one_iff.mp hlength.symm
    have hterm : isTerm (term x) = true := hterms.groups .and [x] hg x (by simp)
    obtain ⟨hpath, hblock⟩ := conjunctPath_trim hterm
    have htext : evaluateText data (joinWith orSign [x]) = evaluateConjunct data x := by
      rw [Chain.evaluateText_group data hplain hg, List.any_cons, List.any_nil, Bool.or_false]
    rw [evaluateText_trim, htext, evaluateConjunct, joinWith, hblock, shows, verdict,
      evaluateText_of_isTerm hterm]
    dsimp only
    rw [hpath]
    rfl

/-- The blocks show a body only if the condition is true. -/
theorem evaluateText_of_parts (hvalid : validateText t = .ok condition) {data : Value}
    (h : (splitConjuncts condition).all (evaluateText data) = true) :
    evaluateText data condition = true := by
  obtain ⟨k, ⟨rfl, hterms⟩, hparts⟩ := exists_groups hvalid
  have hplain : k.Every Chain.IsPlain := hterms.imp fun _ => Chain.isPlain_of_isTerm
  rw [Chain.evaluateText_written data hplain]
  refine Chain.any_all_of_all_any (evaluateConjunct data) ?_
  rw [hparts, List.all_map, List.all_eq_true] at h
  rw [List.all_eq_true]
  intro g hg
  have hpart := h g hg
  rwa [Function.comp_apply, evaluateText_trim, Chain.evaluateText_group data hplain hg] at hpart

/-- A condition without `&&` is its only part. -/
theorem splitConjuncts_of_absent (hvalid : validateText t = .ok condition)
    (habsent : ¬ andSign <:+: condition) : splitConjuncts condition = [condition] := by
  obtain ⟨rfl, -, -⟩ := eq_trim_of_validateText hvalid
  rw [splitConjuncts, conjuncts, splitAt_of_absent (by decide) habsent, List.map_singleton, trim_trim]

/-- A condition with alternatives becomes one block with all of it exactly if there is no `&&`. -/
theorem blocks_eq_singleton_iff (hvalid : validateText t = .ok condition)
    (hor : orSign <:+: condition) :
    blocks condition = [.of "if".toList condition] ↔ ¬ andSign <:+: condition := by
  constructor
  · intro hblocks hand
    obtain ⟨k, ⟨rfl, hterms⟩, hparts⟩ := exists_groups hvalid
    have hplain : k.Every Chain.IsPlain := hterms.imp fun _ => Chain.isPlain_of_isTerm
    -- a single block has a single group, and there is no `&&` in that
    obtain ⟨g, hg⟩ : ∃ g, k.groups .and = [g] := by
      have hlength := congrArg List.length hblocks
      rw [blocks, hparts, List.length_map, List.length_map] at hlength
      exact List.length_eq_one_iff.mp hlength
    have hwhole : k.written = joinWith orSign g := by
      have hjoined := joinWith_splitAt (show andSign ≠ [] by decide) k.written
      rw [show splitAt andSign k.written = _ from Chain.splitAt_written hplain .and, hg] at hjoined
      exact hjoined.symm
    have hmem : '&' ∈ joinWith orSign g := hwhole ▸ hand.subset (by decide)
    rcases mem_joinWith hmem with hsign | ⟨x, hx, hconjunct⟩
    · exact absurd hsign (by decide)
    · exact (hplain.groups .and g (by simp [hg]) x hx).1 hconjunct
  · intro habsent
    rw [blocks, splitConjuncts_of_absent hvalid habsent, List.map_singleton, Block.ofConjunct,
      if_pos (has_iff.mpr hor)]

end Mixed

/-- **Both signs.** A conditional whose condition has alternatives is lowered to a block for each part
of the condition between `&&`. The blocks show the first region of its body if all parts are true. -/
theorem lowerConditional_mixed {raw : Option Text} {condition : Text}
    (hvalid : validateText (decodeCondition raw) = .ok condition) (hor : orSign <:+: condition)
    {data : Value} (hdata : data.isNothing = false) (body : Text) :
    let parts := splitConjuncts condition
    let b := selection condition body (.text (mainRegion body)) (.text (hiddenConditional body))
    b.written = lowerConditional ⟨raw, body⟩ ∧
      ('\x7b' ∉ body → Content.read (lowerConditional ⟨raw, body⟩) = some b) ∧
      (∀ print, b.shown print (verdict data) [] =
        pure (if parts.all (evaluateText data) then mainRegion body else hiddenConditional body)) ∧
      (blocks condition = [.of "if".toList condition] ↔ ¬ andSign <:+: condition) ∧
      ∀ holds, evaluate (.str (String.ofList (decodeCondition raw))) data = .ok holds →
        (parts.all (evaluateText data) = true → holds = true) ∧
          (¬ andSign <:+: condition → parts.all (evaluateText data) = holds) := by
  refine ⟨written_selection hvalid rfl rfl, fun hbrace => ?_, fun print => ?_,
    blocks_eq_singleton_iff hvalid hor, fun holds hholds => ?_⟩
  · exact read_lowerConditional hvalid rfl rfl (fun h => hbrace (mem_of_mem_mainRegion h))
      fun h => hbrace (mem_of_mem_hiddenConditional h)
  · have hparts : ((splitConjuncts condition).all fun x =>
        shows (verdict data) [] (conjunctPath x).1 (conjunctPath x).2) =
          (splitConjuncts condition).all (evaluateText data) := by
      rw [Bool.eq_iff_iff, List.all_eq_true, List.all_eq_true]
      exact forall₂_congr fun x hx => by rw [shows_verdict hvalid data hx]
    rw [shown_selection rfl, hparts]
    split <;> rfl
  · have htruth : evaluateText data condition = holds := by
      rw [evaluate_str _ hdata, String.toList_ofList] at hholds
      have htrim : condition = trim (decodeCondition raw) := (eq_trim_of_validateText hvalid).1
      rw [htrim, evaluateText_trim]
      cases hpaths : checkPaths (decodeCondition raw) with
      | error failure => simp [hpaths, Except.map] at hholds
      | ok _ =>
        rw [hpaths] at hholds
        exact Except.ok.inj hholds
    refine ⟨fun h => htruth ▸ evaluateText_of_parts hvalid h, fun habsent => ?_⟩
    rw [splitConjuncts_of_absent hvalid habsent, List.all_cons, List.all_nil, Bool.and_true, htruth]

/-- Data with some flags set. -/
def flags (names : List String) : Value := .map (names.map fun name => (.str name, .bool true))

/-- A condition with both signs, as it stands in an attribute. -/
def bothSigns : Option Text := some "a &amp;&amp; b || c".toList

theorem lowerConditional_bothSigns :
    ∃ condition, validateText (decodeCondition bothSigns) = .ok condition ∧
      orSign <:+: condition ∧
      (evaluate (.str (String.ofList (decodeCondition bothSigns))) (flags ["a", "c"])).toOption =
        some true ∧
      ∃ b, Content.read (lowerConditional ⟨bothSigns, "X".toList⟩) = some b ∧
        ∀ print, b.shown print (verdict (flags ["a", "c"])) [] = pure "X".toList := by
  have hvalid : validateText (decodeCondition bothSigns) = .ok "a && b || c".toList :=
    eq_ok_of_toOption (by decide +kernel)
  have hor : orSign <:+: "a && b || c".toList := by decide +kernel
  obtain ⟨-, hread, hshown, -⟩ :=
    lowerConditional_mixed hvalid hor (show (flags ["a", "c"]).isNothing = false from rfl) "X".toList
  have hparts : (splitConjuncts "a && b || c".toList).all (evaluateText (flags ["a", "c"])) = true := by
    decide +kernel
  have hmain : mainRegion "X".toList = "X".toList := by decide +kernel
  rw [hparts, if_pos rfl, hmain] at hshown
  exact ⟨_, hvalid, hor, by decide +kernel, _, hread (by decide), hshown⟩

/-- **Precedence.** The condition is true for its last conjunct alone, and so it is one block that
shows the body, but two blocks hide it. -/
theorem lowerConditional_mixed_ne :
    (evaluate (.str (String.ofList (decodeCondition bothSigns))) (flags ["c"])).toOption = some true ∧
      lowerConditional ⟨bothSigns, "X".toList⟩ =
        "\x7b\x7b#if a\x7d\x7d\x7b\x7b#if b || c\x7d\x7dX\x7b\x7b/if\x7d\x7d\x7b\x7b/if\x7d\x7d".toList ∧
      lowerConditional ⟨bothSigns, "X".toList⟩ ≠
        "\x7b\x7b#if a && b || c\x7d\x7dX\x7b\x7b/if\x7d\x7d".toList ∧
      ∃ b, Content.read (lowerConditional ⟨bothSigns, "X".toList⟩) = some b ∧
        ∀ print, b.shown print (verdict (flags ["c"])) [] = pure [] := by
  have hlowered : lowerConditional ⟨bothSigns, "X".toList⟩ =
      "\x7b\x7b#if a\x7d\x7d\x7b\x7b#if b || c\x7d\x7dX\x7b\x7b/if\x7d\x7d\x7b\x7b/if\x7d\x7d".toList := by
    decide +kernel
  have hread : Content.read (lowerConditional ⟨bothSigns, "X".toList⟩) =
      some (.conditional [] false "a".toList
        (.conditional [] false "b || c".toList (.text "X".toList) (.text [])) (.text [])) := by
    decide +kernel
  refine ⟨by decide +kernel, hlowered, by rw [hlowered]; decide +kernel, _, hread, fun print => ?_⟩
  have hhides : shows (verdict (flags ["c"])) [] false "a".toList = false := by decide +kernel
  rw [Content.shown, hhides, if_neg Bool.false_ne_true]
  simp [Content.shown]

end Stencil.Template
