import Stencil.Proofs.Condition
import Stencil.Proofs.Path

/-!
# What a condition looks at

Evaluation decides every part of a condition, also those that do not matter any more: it looks up all
paths, in the order in which they stand in the text. To see this, the same evaluation is run with lookups
that are written down (`noteLookUp`).

The main statement is `evaluate_reading`: **the truth of a condition is that some alternative has only true
conjuncts, and what is looked up are the paths of the conjuncts, which for a validated condition are its
terms.** The one exception is a path that cannot be read, a position of too many digits being among its
parts. Then evaluation is refused, even if an alternative in front of it is true (`evaluate_overlong_ne`).
-/

namespace Stencil.Condition

open Text

variable {t : Text}

/-! ### Paths that can be read -/

/-- A path that can be read: its positions do not have too many digits. -/
def IsReadable (path : Text) : Prop :=
  ∀ field ∈ Path.fields path, field.all isDigit = true → field.length ≤ Decimal.digitLimit

instance : DecidablePred IsReadable := fun path =>
  inferInstanceAs (Decidable (∀ field ∈ Path.fields path, field.all isDigit = true →
    field.length ≤ Decimal.digitLimit))

theorem checkField_eq_ok_iff {field : Text} :
    Path.checkField field = .ok () ↔
      (field.all isDigit = true → field.length ≤ Decimal.digitLimit) := by
  rw [Path.checkField, Decimal.checkDigits]
  split_ifs with hdigits hlength
  · simp [hdigits, Nat.not_le.mpr hlength]
  · simp [Nat.not_lt.mp hlength]
  · simp [hdigits]

theorem isReadable_iff {path : Text} : IsReadable path ↔ ∃ steps, Path.read path = .ok steps := by
  have hfields : IsReadable path ↔ (Path.fields path).forM Path.checkField = .ok () := by
    rw [forM_eq_ok_iff]
    exact forall₂_congr fun field _ => checkField_eq_ok_iff.symm
  rw [hfields, Path.read]
  cases (Path.fields path).forM Path.checkField <;> simp [bind, Except.bind, pure, Except.pure]

/-! ### Writing lookups down -/

/-- Work that may fail and writes down what it looks at. -/
abbrev Noted := ExceptT Failure (StateM (List Text))

/-- Looks up a path and writes it down. -/
def noteLookUp (data : Value) (path : Text) : Noted Bool :=
  fun noted => (lookUp data path, noted ++ [path])

/-- The paths up to the first one that cannot be read, which is among them. -/
def readUpTo : List Text → List Text
  | [] => []
  | path :: rest => path :: if IsReadable path then readUpTo rest else []

theorem readUpTo_of_forall {l : List Text} (h : ∀ path ∈ l, IsReadable path) : readUpTo l = l := by
  induction l with
  | nil => rfl
  | cons path rest ih =>
    rw [List.forall_mem_cons] at h
    rw [readUpTo, if_pos h.1, ih h.2]

/-- Reads a path and writes it down. -/
private def noteRead (path : Text) : Noted Unit :=
  fun noted => ((Path.read path).map fun _ => (), noted ++ [path])

private theorem noteLookUp_eq (data : Value) (path : Text) :
    noteLookUp data path = (fun _ => (data.resolve path).isTruthy) <$> noteRead path := by
  funext noted
  rw [noteLookUp, lookUp_eq, map_apply, noteRead]
  rfl

/-- Reading goes on up to the first path that cannot be read. -/
private theorem forM_noteRead (l noted : List Text) :
    l.forM noteRead noted =
      (l.forM fun path => (Path.read path).map fun _ => (), noted ++ readUpTo l) := by
  induction l generalizing noted with
  | nil =>
    rw [readUpTo, List.append_nil]
    rfl
  | cons path rest ih =>
    change (do noteRead path; rest.forM noteRead : Noted Unit) noted =
      (do (Path.read path).map fun _ => (); rest.forM fun path => (Path.read path).map fun _ => (), _)
    rw [bind_apply, noteRead, readUpTo]
    cases hread : Path.read path with
    | ok steps =>
      rw [if_pos (isReadable_iff.mpr ⟨steps, hread⟩)]
      refine (ih (noted ++ [path])).trans ?_
      rw [List.append_assoc]
      rfl
    | error failure =>
      rw [if_neg fun h => ?_]
      · rfl
      · obtain ⟨steps, hsteps⟩ := isReadable_iff.mp h
        rw [hread] at hsteps
        cases hsteps

/-- **Evaluation with the paths written down** is evaluation: it looks at all paths in order, as long as they
can be read. -/
theorem decideWith_noteLookUp (t : Text) {data : Value} (hdata : data.isNothing = false)
    (noted : List Text) :
    decideWith (noteLookUp data) t noted =
      (evaluate (.str (String.ofList t)) data, noted ++ readUpTo (paths t)) := by
  rw [evaluate_str _ hdata, String.toList_ofList, funext (noteLookUp_eq data), decideWith_visit]
  rw [map_apply, forM_noteRead, ← checkPaths]
  rfl

/-- White space around a condition does not change its terms. -/
theorem terms_trim (t : Text) : terms (trim t) = terms t := by
  have hterm : ∀ t, term (trim t) = term t := fun t => by rw [term, trim_trim, term]
  rw [terms, List.flatMap_def, map_conjuncts_trim hterm, ← List.flatMap_def, terms]

/-- The terms of a validated condition are the paths that it looks at. -/
theorem paths_eq_terms {c : Text} (hvalid : validateText t = .ok c) : paths t = terms t := by
  obtain ⟨rfl, -, hterms⟩ := eq_trim_of_validateText hvalid
  rw [terms_trim] at hterms
  refine List.flatMap_congr fun alternative halternative =>
    List.map_congr_left fun conjunct hconjunct => ?_
  refine (conjunctPath_trim (hterms _ ?_)).1
  exact List.mem_flatMap.mpr ⟨alternative, halternative, List.mem_map_of_mem hconjunct⟩

theorem checkPaths_eq_ok_iff_readable :
    checkPaths t = .ok () ↔ ∀ path ∈ paths t, IsReadable path := by
  rw [checkPaths_eq_ok_iff]
  exact forall₂_congr fun path _ => isReadable_iff.symm

/-- A condition has a truth exactly if all its paths can be read. -/
theorem exists_evaluate_iff {data : Value} (hdata : data.isNothing = false) :
    (∃ holds, evaluate (.str (String.ofList t)) data = .ok holds) ↔
      ∀ path ∈ paths t, IsReadable path := by
  rw [← checkPaths_eq_ok_iff_readable, evaluate_str _ hdata, String.toList_ofList]
  cases checkPaths t <;> simp [Except.map]

/-- **A condition is read on two levels.** All its paths are looked up, in order, up to one that cannot be
read; if there is none, the condition is true exactly if some alternative has only true conjuncts. The
paths of a validated condition are its terms. -/
theorem evaluate_reading (t : Text) {data : Value} (hdata : data.isNothing = false) :
    (∀ noted, decideWith (noteLookUp data) t noted =
        (evaluate (.str (String.ofList t)) data, noted ++ readUpTo (paths t))) ∧
      ((∃ holds, evaluate (.str (String.ofList t)) data = .ok holds) ↔
        ∀ path ∈ paths t, IsReadable path) ∧
      ((∀ path ∈ paths t, IsReadable path) →
        readUpTo (paths t) = paths t ∧
          (evaluate (.str (String.ofList t)) data = .ok true ↔
            ∃ alternative ∈ alternatives t, ∀ conjunct ∈ conjuncts alternative,
              evaluateConjunct data conjunct = true)) ∧
      ∀ c, validateText t = .ok c → paths t = terms t := by
  refine ⟨decideWith_noteLookUp t hdata, exists_evaluate_iff hdata,
    fun hreadable => ⟨readUpTo_of_forall hreadable, ?_⟩, fun c => paths_eq_terms⟩
  rw [evaluate_str _ hdata, String.toList_ofList, checkPaths_eq_ok_iff_readable.mpr hreadable]
  simp [Except.map, evaluateText]

/-- A condition whose signs are doubled, overlap and have white space among them. -/
def manySigns : Text := " ! !b&&a || !  a |||b&&&a".toList

/-- Data with a name, and one with the sign that is left over where signs overlap. -/
def flagged : Value := .map [(.str "a", .bool true), (.str "|b", .bool true), (.str "&a", .int 1)]

theorem evaluate_manySigns :
    flagged.isNothing = false ∧
      (∀ path ∈ paths manySigns, IsReadable path) ∧
      decideWith (noteLookUp flagged) manySigns [] =
        (evaluate (.str (String.ofList manySigns)) flagged,
          ["b".toList, "a".toList, "a".toList, "|b".toList, "&a".toList]) ∧
      evaluate (.str (String.ofList manySigns)) flagged = .ok true := by
  have hdata : flagged.isNothing = false := rfl
  have hreadable : ∀ path ∈ paths manySigns, IsReadable path := by decide +kernel
  obtain ⟨hnoted, -, hreading, -⟩ := evaluate_reading manySigns hdata
  obtain ⟨hall, htrue⟩ := hreading hreadable
  refine ⟨hdata, hreadable, ?_, htrue.mpr (by decide +kernel)⟩
  rw [hnoted [], hall]
  exact congrArg (Prod.mk _) (by decide +kernel)

/-- Two terms with a sign between them are the alternatives and the paths. -/
theorem alternatives_of_isTerm {u v : Text} (hu : isTerm u = true) (hv : isTerm v = true) :
    alternatives (u ++ (orSign ++ v)) = [u, v] ∧ paths (u ++ (orSign ++ v)) = [u, v] := by
  have hsign : ∀ c ∈ u, c ∉ orSign := fun c hc hmem => by
    obtain rfl : c = '|' := by simpa [orSign] using hmem
    exact not_mem_of_isTerm (by decide) hu hc
  have halternatives : alternatives (u ++ (orSign ++ v)) = [u, v] := by
    rw [alternatives, splitAt_append_separator (by decide) hsign]
    exact congrArg (u :: ·) (single_of_isTerm hv).2.1
  have hpath : ∀ {w}, isTerm w = true →
      ((conjuncts w).map fun conjunct => (negations (trim conjunct)).2) = [w] := fun hw => by
    rw [(single_of_isTerm hw).2.2, List.map_singleton, trim_of_forall (isBlank_of_isTerm hw),
      negations_of_isTerm hw]
  exact ⟨halternatives, by
    rw [paths, halternatives, List.flatMap_cons, List.flatMap_singleton, hpath hu, hpath hv]
    rfl⟩

/-- A position of too many digits. -/
def overlong : Text := List.replicate 4301 '1'

theorem isTerm_overlong : isTerm overlong = true := by
  rw [isTerm, overlong, List.all_replicate]
  rfl

/-- It cannot be read as a path. -/
theorem not_isReadable_overlong : ¬ IsReadable overlong := by
  intro hreadable
  have hfields : Path.fields overlong = [overlong] := by
    refine Path.fields_of_forall (fun c hc => ?_) (ne_nil_of_isTerm isTerm_overlong)
    obtain rfl := List.eq_of_mem_replicate hc
    rfl
  have hdigits : overlong.all isDigit = true := by
    rw [overlong, List.all_replicate]
    rfl
  have hlength := hreadable overlong (by rw [hfields]; exact List.mem_singleton_self _) hdigits
  rw [overlong, List.length_replicate] at hlength
  exact absurd hlength (by decide)

/-- **All alternatives are looked up.** The first one is true, and the position behind it cannot be read. -/
theorem evaluate_overlong_ne :
    (∃ alternative ∈ alternatives ("a".toList ++ (orSign ++ overlong)),
      ∀ conjunct ∈ conjuncts alternative, evaluateConjunct flagged conjunct = true) ∧
    evaluate (.str (String.ofList ("a".toList ++ (orSign ++ overlong)))) flagged ≠ .ok true := by
  have hname : isTerm "a".toList = true := by decide
  obtain ⟨halternatives, hpaths⟩ := alternatives_of_isTerm hname isTerm_overlong
  refine ⟨⟨"a".toList, by rw [halternatives]; exact List.mem_cons_self, by decide +kernel⟩,
    fun hholds => ?_⟩
  have hdata : flagged.isNothing = false := rfl
  have hreadable := (exists_evaluate_iff hdata).mp ⟨true, hholds⟩
  rw [hpaths] at hreadable
  exact not_isReadable_overlong (hreadable overlong (by simp))

end Stencil.Condition
