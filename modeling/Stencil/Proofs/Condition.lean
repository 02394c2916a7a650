import Stencil.Proofs.Condition.Levels
import Stencil.Proofs.Render.Names
import Stencil.Proofs.Template.Content

/-!
# Conditions block by block

A condition without alternatives becomes one block inside the other, one for every conjunct, each with a
sign and a path (`conjunctPath`). The main statement is `evaluate_eq_map`: **evaluating the condition
comes to asking block by block** whether the value at the path is true, or false for a negated conjunct.
So it does not matter that blocks see the trimmed text of a validated condition and evaluation the
condition as it is written, nor that blocks count the signs in front of a conjunct and evaluation takes
them off one by one. Where the terms are paths of names, the evaluation is not refused (`evaluate_eq`).
-/

namespace Stencil.Condition

open Text Render Template

variable {t c : Text}

theorem alternatives_of_absent (h : ¬ orSign <:+: t) : alternatives t = [t] :=
  splitAt_of_absent (by decide) h

/-- Trimming a condition does not change its trimmed conjuncts. -/
theorem splitConjuncts_trim (t : Text) : splitConjuncts (trim t) = splitConjuncts t :=
  map_trim_splitAt_trim (by decide) (by decide) t

/-- White space around a condition does not change its truth. -/
theorem evaluateText_trim (data : Value) (t : Text) :
    evaluateText data (trim t) = evaluateText data t := by
  have hconjunct : ∀ t, evaluateConjunct data (trim t) = evaluateConjunct data t := fun t => by
    rw [evaluateConjunct, trim_trim, evaluateConjunct]
  have hlevels := map_conjuncts_trim hconjunct t
  simpa [evaluateText, Function.comp_def] using
    congrArg (List.any · fun alternative => alternative.all id) hlevels

/-! ### Conjuncts -/

private theorem negations_append_signs {signs : Text} (h : ∀ c ∈ signs, c = '!') (t : Text) :
    negations (signs ++ t) = (signs.length + (negations t).1, (negations t).2) := by
  induction signs with
  | nil => simp
  | cons c cs ih =>
    obtain rfl := h c (by simp)
    simp only [List.cons_append, negations, if_true, ih fun d hd => h d (by simp [hd])]
    simp
    omega

/-- A trimmed conjunct is some signs, white space, and its term. -/
private theorem exists_signs (t : Text) :
    ∃ signs blanks, trim t = signs ++ (blanks ++ term t) ∧ (∀ c ∈ signs, c = '!') ∧
      (∀ c ∈ blanks, isBlank c = true) ∧ (trim t).dropWhile (· == '!') = blanks ++ term t := by
  obtain ⟨blanks, hdrop, hblanks⟩ :=
    exists_eq_trim_of_suffix (List.dropWhile_suffix (l := trim t) (· == '!'))
  change _ = blanks ++ term t at hdrop
  have hsigns : ∀ c ∈ (trim t).takeWhile (· == '!'), c = '!' := fun c hc => by
    simpa using List.all_eq_true.mp List.all_takeWhile c hc
  refine ⟨_, blanks, ?_, hsigns, hblanks, hdrop⟩
  rw [← hdrop, List.takeWhile_append_dropWhile]

/-- There are no signs in front of a term. -/
theorem negations_of_isTerm (h : isTerm t = true) : negations t = (0, t) := by
  cases t with
  | nil => exact absurd rfl (ne_nil_of_isTerm h)
  | cons c cs =>
    have hne : c ≠ '!' := by
      rintro rfl
      exact not_mem_of_isTerm (by decide) h List.mem_cons_self
    exact negations_cons hne (isBlank_of_isTerm h c List.mem_cons_self) cs

/-- The block of a conjunct has the sign and the path that evaluation finds. -/
theorem conjunctPath_trim (h : isTerm (term t) = true) :
    (negations (trim t)).2 = term t ∧
      conjunctPath (trim t) = ((negations (trim t)).1 % 2 == 1, term t) := by
  obtain ⟨signs, blanks, htrim, hsigns, hblanks, hdrop⟩ := exists_signs t
  have hterm := negations_of_isTerm h
  have hnegations : negations (trim t) = (signs.length, term t) := by
    rw [htrim, negations_append_signs hsigns, negations_append_blanks hblanks, hterm]
    simp
  refine ⟨by rw [hnegations], ?_⟩
  -- a block takes for signs what stands in front of the path and its blanks
  have hlength : (trim t).length - (blanks ++ term t).length = signs.length := by
    rw [htrim]
    simp
  have hpath : trim (blanks ++ term t) = term t := by
    rw [trim_append_left hblanks, trim_of_forall (isBlank_of_isTerm h)]
  have habsent : ¬ has orSign (trim t) = true := by
    rw [has_iff, htrim]
    intro hor
    have hmem : '|' ∈ signs ++ (blanks ++ term t) := hor.subset (by decide)
    simp only [List.mem_append] at hmem
    rcases hmem with hmem | hmem | hmem
    · exact absurd (hsigns _ hmem) (by decide)
    · exact absurd (hblanks _ hmem) (by decide)
    · exact not_mem_of_isTerm (by decide) h hmem
  rw [conjunctPath, if_neg habsent, hdrop, hnegations]
  dsimp only
  rw [hpath, hlength]

/-! ### Validated conditions -/

/-- There are no braces around a validated condition. -/
theorem unwrapped_of_validateText (h : validateText t = .ok c) : unwrapped t = t := by
  have hnone : after? ['\x7b', '\x7b'] t = none :=
    after?_eq_none_iff.mpr fun hp =>
      (show IsForeign '\x7b' by decide).not_mem_of_validateText h (hp.subset (by simp))
  rw [unwrapped, hnone]

/-! ### Evaluation -/

/-- A condition is refused only for a path that cannot be read. -/
theorem checkPaths_eq_ok_iff :
    checkPaths t = .ok () ↔ ∀ path ∈ paths t, ∃ steps, Path.read path = .ok steps := by
  rw [checkPaths, forM_eq_ok_iff]
  refine forall₂_congr fun path _ => ?_
  cases Path.read path <;> simp [Except.map]

section Validated

variable (hvalid : validateText t = .ok c) (habsent : ¬ orSign <:+: t)

include hvalid habsent

/-- A conjunct of a validated condition is a trimmed text whose term is usable. -/
private theorem exists_of_mem_splitConjuncts {conjunct : Text} (h : conjunct ∈ splitConjuncts c) :
    ∃ own ∈ conjuncts c, conjunct = trim own ∧ isTerm (term own) = true := by
  obtain ⟨rfl, -, hterms⟩ := eq_trim_of_validateText hvalid
  obtain ⟨own, hown, rfl⟩ := List.mem_map.mp h
  rw [terms, alternatives_of_absent (absent_trim habsent), List.flatMap_singleton] at hterms
  exact ⟨own, hown, rfl, hterms _ (List.mem_map_of_mem hown)⟩

/-- The block of a conjunct has the sign and the path that evaluation finds. -/
theorem conjunctPath_eq {conjunct : Text} (h : conjunct ∈ splitConjuncts c) :
    conjunctPath conjunct = ((negations conjunct).1 % 2 == 1, (negations conjunct).2) := by
  obtain ⟨own, -, rfl, hterm⟩ := exists_of_mem_splitConjuncts hvalid habsent h
  obtain ⟨hpath, hblock⟩ := conjunctPath_trim hterm
  rw [hblock, hpath]

/-- The terms of a validated condition without alternatives are the paths of its blocks. -/
theorem map_conjunctPath :
    (splitConjuncts c).map (fun conjunct => (conjunctPath conjunct).2) = terms c := by
  obtain ⟨rfl, -, hterms⟩ := eq_trim_of_validateText hvalid
  rw [terms, alternatives_of_absent (absent_trim habsent), List.flatMap_singleton] at hterms ⊢
  rw [splitConjuncts, List.map_map]
  refine List.map_congr_left fun conjunct h => ?_
  rw [Function.comp_apply, (conjunctPath_trim (hterms _ (List.mem_map_of_mem h))).2]

/-- Evaluation looks at the paths of the blocks. -/
theorem paths_eq : paths t = (splitConjuncts c).map fun conjunct => (conjunctPath conjunct).2 := by
  have hpaths : paths t = (splitConjuncts t).map fun conjunct => (negations conjunct).2 := by
    rw [paths, alternatives_of_absent habsent, List.flatMap_singleton, splitConjuncts, List.map_map]
    rfl
  have htrim : c = trim t := (eq_trim_of_validateText hvalid).1
  rw [hpaths, ← splitConjuncts_trim, ← htrim]
  refine List.map_congr_left fun conjunct h => ?_
  rw [conjunctPath_eq hvalid habsent h]

/-- The truth of a validated condition without alternatives, block by block. -/
theorem evaluateText_eq (data : Value) :
    evaluateText data t = (splitConjuncts c).all fun conjunct =>
      (data.resolve (conjunctPath conjunct).2).isTruthy != (conjunctPath conjunct).1 := by
  have htext : evaluateText data t = (splitConjuncts t).all fun conjunct =>
      (data.resolve (negations conjunct).2).isTruthy != ((negations conjunct).1 % 2 == 1) := by
    rw [evaluateText, alternatives_of_absent habsent, splitConjuncts, List.any_cons, List.any_nil,
      Bool.or_false, List.all_map]
    rfl
  have htrim : c = trim t := (eq_trim_of_validateText hvalid).1
  rw [htext, ← splitConjuncts_trim, ← htrim, Bool.eq_iff_iff, List.all_eq_true, List.all_eq_true]
  refine forall₂_congr fun conjunct h => ?_
  rw [conjunctPath_eq hvalid habsent h]

/-- **Conditions.** A validated condition without alternatives is decided block by block, if its paths
can be read. -/
theorem evaluate_eq_map {data : Value} (hdata : data.isNothing = false) :
    evaluate (.str (String.ofList t)) data = (checkPaths t).map fun _ =>
      (splitConjuncts c).all fun conjunct =>
        (data.resolve (conjunctPath conjunct).2).isTruthy != (conjunctPath conjunct).1 := by
  rw [evaluate_str _ hdata, String.toList_ofList, evaluateText_eq hvalid habsent]

end Validated

/-- Paths of names can be read, so a condition on them is not refused. -/
theorem evaluate_eq (hvalid : validateText t = .ok c) (habsent : ¬ orSign <:+: t)
    (hpaths : ∀ x ∈ splitConjuncts c, IsNamePath (conjunctPath x).2) {data : Value}
    (hdata : data.isNothing = false) :
    evaluate (.str (String.ofList t)) data =
      .ok ((splitConjuncts c).all fun conjunct =>
        (data.resolve (conjunctPath conjunct).2).isTruthy != (conjunctPath conjunct).1) := by
  have hread : checkPaths t = .ok () := checkPaths_eq_ok_iff.mpr fun path hpath => by
    rw [paths_eq hvalid habsent] at hpath
    obtain ⟨x, hx, rfl⟩ := List.mem_map.mp hpath
    exact ⟨_, (hpaths x hx).read_eq⟩
  rw [evaluate_eq_map hvalid habsent hdata, hread]
  rfl

/-! ### Terms by themselves -/

/-- There are no signs in a term, so it is the only conjunct of the only alternative. -/
theorem single_of_isTerm (h : isTerm t = true) :
    ¬ orSign <:+: t ∧ alternatives t = [t] ∧ conjuncts t = [t] := by
  have habsent : ∀ {sign : Text} {c : Char}, c ∈ sign → isTermChar c = false → ¬ sign <:+: t :=
    fun hc hchar hi => not_mem_of_isTerm hchar h (hi.subset hc)
  have hor : ¬ orSign <:+: t := habsent (c := '|') (by decide) (by decide)
  have hand : ¬ andSign <:+: t := habsent (c := '&') (by decide) (by decide)
  exact ⟨hor, alternatives_of_absent hor, splitAt_of_absent (by decide) hand⟩

/-- A term is true if there is something true at it. -/
theorem evaluateText_of_isTerm (h : isTerm t = true) (data : Value) :
    evaluateText data t = (data.resolve t).isTruthy := by
  obtain ⟨-, halternatives, hconjuncts⟩ := single_of_isTerm h
  rw [evaluateText, halternatives, List.any_cons, List.any_nil, Bool.or_false, hconjuncts,
    List.all_cons, List.all_nil, Bool.and_true, evaluateConjunct,
    trim_of_forall (isBlank_of_isTerm h), negations_of_isTerm h]
  exact Bool.bne_false _

/-! ### Paths by themselves -/

/-- A path of names is a usable term. -/
theorem isTerm_of_isNamePath (h : IsNamePath t) : isTerm t = true := by
  rw [isTerm, Bool.and_eq_true, List.all_eq_true]
  refine ⟨by simp [h.ne_nil], fun c hc => ?_⟩
  have hblank := h.isBlank_of_mem c hc
  have hout : ∀ d ∈ ['!', '&', '|', '\x7b', '\x7d', '(', ')', '<', '>', '"', '\''], c ≠ d := by
    rintro d hd rfl
    have hall : ∀ x ∈ ['!', '&', '|', '\x7b', '\x7d', '(', ')', '<', '>', '"', '\''],
        isIdentifierChar x = false ∧ x ≠ '.' := by decide
    exact h.not_mem (hall c hd).1 (hall c hd).2 hc
  have hplain : ∀ d ∈ ['!', '&', '|', '\x7b', '\x7d', '(', ')', '<', '>', '"', '\''], (c == d) = false :=
    fun d hd => beq_false_of_ne (hout d hd)
  simp only [List.forall_mem_cons] at hplain
  simp [isTermChar, hblank, hplain]

/-- There are no signs to drop in front of a path. -/
private theorem dropWhile_of_isNamePath (h : IsNamePath t) : t.dropWhile (· == '!') = t := by
  rw [List.dropWhile_eq_self_iff]
  intro hlength hsign
  have hmem : '!' ∈ t := (beq_iff_eq.mp hsign) ▸ List.getElem_mem hlength
  exact h.not_mem (by decide) (by decide) hmem

/-- A path by itself can be put into a template. -/
theorem validateText_of_isNamePath (h : IsNamePath t) : validateText t = .ok t := by
  obtain ⟨-, halternatives, hconjuncts⟩ := single_of_isTerm (isTerm_of_isNamePath h)
  have hterms : terms t = [t] := by
    rw [terms, halternatives, List.flatMap_singleton, hconjuncts, List.map_singleton, term, h.trim_eq,
      dropWhile_of_isNamePath h, h.trim_eq]
  have hterm := isTerm_of_isNamePath h
  unfold validateText
  dsimp only
  rw [h.trim_eq, if_neg (by simp [h.ne_nil]), hterms, List.filter_cons_of_neg (by simp [hterm])]
  rfl

/-- A path by itself becomes one block. -/
theorem blocks_of_isNamePath (h : IsNamePath t) : blocks t = [.of "if".toList t] := by
  obtain ⟨hor, -, hconjuncts⟩ := single_of_isTerm (isTerm_of_isNamePath h)
  have hpath : conjunctPath t = (false, t) := by
    rw [conjunctPath, if_neg (by rwa [has_iff]), dropWhile_of_isNamePath h]
    dsimp only
    rw [Nat.sub_self, h.trim_eq]
    rfl
  rw [blocks, splitConjuncts, hconjuncts, List.map_singleton, List.map_singleton, h.trim_eq,
    Block.ofConjunct_eq, hpath]
  rfl

/-- A path by itself is a condition that asks for the value at the path. -/
theorem evaluate_path (h : IsNamePath t) {data : Value} (hdata : data.isNothing = false) :
    evaluate (.str (String.ofList t)) data = .ok (data.resolve t).isTruthy := by
  obtain ⟨-, halternatives, hconjuncts⟩ := single_of_isTerm (isTerm_of_isNamePath h)
  have hnegations := negations_of_isTerm (isTerm_of_isNamePath h)
  have hpaths : checkPaths t = .ok () := checkPaths_eq_ok_iff.mpr fun path hpath => by
    rw [paths, halternatives, List.flatMap_singleton, hconjuncts, List.map_singleton, h.trim_eq,
      hnegations, List.mem_singleton] at hpath
    rw [hpath]
    exact ⟨_, h.read_eq⟩
  have htext := evaluateText_of_isTerm (isTerm_of_isNamePath h) data
  rw [evaluate_str _ hdata, String.toList_ofList, hpaths, htext]
  rfl

end Stencil.Condition
