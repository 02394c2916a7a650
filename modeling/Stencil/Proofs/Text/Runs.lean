import Mathlib.Data.List.TakeWhile
import Stencil.Proofs.Text.Fields
import Stencil.Proofs.Text.Scanning

/-!
# Scanning a text run by run

A character that a matcher never looks beyond cuts every scan in two: what is found in `u ++ c :: v` is
what is found in `u`, then the character `c`, then what is found in `v` (`pieces_append_cons`). So a
replacement that no occurrence carries over the characters outside `isPart` acts on each `run` of
characters inside it alone, and two such replacements are compared run by run (`eq_iff_forall_runs`).
-/

namespace Stencil.Text

/-! ### Characters that nothing reaches over -/

section Stops

variable {α : Type} {m : Matcher α} {c : Char}

/-- A matcher **stops at** a character if it sees nothing of a text from this character on. -/
def StopsAt (m : Matcher α) (c : Char) : Prop :=
  ∀ u v, m (u ++ c :: v) = (m u).map fun (found, rest) => (found, rest ++ c :: v)

private theorem piecesFrom_append_cons (h : StopsAt m c) {skip : ℕ} {u : Text}
    (hskip : skip ≤ u.length) (v : Text) :
    piecesFrom m skip (u ++ c :: v) = piecesFrom m skip u ++ .char c :: piecesFrom m 0 v := by
  induction u generalizing skip with
  | nil =>
    obtain rfl : skip = 0 := by simpa using hskip
    rw [List.nil_append, piecesFrom, piecesFrom, ← List.nil_append (c :: v), h]
    rcases m [] with _ | ⟨found, rest⟩
    · rfl
    · -- An empty occurrence at the end of `u` is one in front of `c`, too.
      have hlength : ([] ++ c :: v).length - (rest ++ c :: v).length = 0 := by simp
      simp only [Option.map_some, hlength]
      rfl
  | cons d ds ih =>
    cases skip with
    | succ skip => exact ih (by simpa using hskip)
    | zero =>
      -- an occurrence takes as many characters as without what is behind it
      have hlength : ∀ rest : Text, (d :: (ds ++ c :: v)).length - (rest ++ c :: v).length =
          (d :: ds).length - rest.length := by
        intro rest
        simp only [List.length_cons, List.length_append]
        omega
      have hm := h (d :: ds) v
      rw [List.cons_append] at hm ⊢
      rw [piecesFrom, piecesFrom, hm]
      rcases m (d :: ds) with _ | ⟨found, rest⟩
      · exact congrArg _ (ih (Nat.zero_le _))
      · simp only [Option.map_some, hlength]
        split
        · exact congrArg (fun ps => Piece.hit found :: Piece.char d :: ps) (ih (Nat.zero_le _))
        · next skip hcount =>
          refine congrArg _ (ih ?_)
          rw [List.length_cons] at hcount
          omega

/-- **Cut in two.** A scan starts afresh behind a character that the matcher stops at. -/
theorem pieces_append_cons (h : StopsAt m c) (u v : Text) :
    pieces m (u ++ c :: v) = pieces m u ++ .char c :: pieces m v :=
  piecesFrom_append_cons h (Nat.zero_le _) v

/-- Replacing stops at a character that no occurrence goes over. -/
theorem replaceEach_append_cons (h : StopsAt m c) (new : α → Text) (u v : Text) :
    replaceEach m new (u ++ c :: v) = replaceEach m new u ++ c :: replaceEach m new v := by
  rw [replaceEach, pieces_append_cons h, List.flatMap_append]
  rfl

/-- Looking for a word stops at a character that the word does not have. -/
theorem stopsAt_literal {word : Text} (hc : c ∉ word) : StopsAt (literal word) c := by
  have hafter : ∀ u v, after? word (u ++ c :: v) = (after? word u).map (· ++ c :: v) := by
    intro u v
    induction word generalizing u with
    | nil => cases u <;> rfl
    | cons w ws ih =>
      obtain ⟨hw, hws⟩ := not_or.mp (List.mem_cons.not.mp hc)
      cases u with
      | nil => simp [after?, Ne.symm hw]
      | cons d ds =>
        rw [List.cons_append, after?, after?]
        split
        · exact ih hws ds
        · rfl
  intro u v
  rw [literal, literal, hafter, Option.map_map, Option.map_map]
  rfl

/-- Words are replaced on both sides of a character that they do not have. -/
theorem replaceWord_append_cons {word : Text} (hc : c ∉ word) (new u v : Text) :
    replaceWord word new (u ++ c :: v) = replaceWord word new u ++ c :: replaceWord word new v :=
  replaceEach_append_cons (stopsAt_literal hc) _ u v

end Stops

/-! ### Runs -/

section Runs

variable (isPart : Char → Bool)

/-- The runs of a text: what stands between the characters that are no part of a run. A run may be
empty. -/
def runs (t : Text) : List Text := splitBy (fun c => !isPart c) t

/-- That a function on texts treats what comes before and behind a character that is no part of a run
apart, and keeps the character. -/
def TreatsApart (f : Text → Text) : Prop :=
  ∀ c, isPart c = false → ∀ u v, f (u ++ c :: v) = f u ++ c :: f v

variable {isPart}

theorem TreatsApart.comp {f g : Text → Text} (hf : TreatsApart isPart f)
    (hg : TreatsApart isPart g) : TreatsApart isPart (f ∘ g) := by
  intro c hc u v
  rw [Function.comp_apply, hg c hc, hf c hc]
  rfl

theorem runs_of_forall {u : Text} (h : ∀ c ∈ u, isPart c = true) : runs isPart u = [u] :=
  splitBy_of_forall fun c hc => by rw [h c hc, Bool.not_true]

theorem runs_append_cons {u : Text} (h : ∀ c ∈ u, isPart c = true) {c : Char}
    (hc : isPart c = false) (v : Text) : runs isPart (u ++ c :: v) = u :: runs isPart v := by
  have hu := runs_of_forall h
  rw [runs] at hu
  rw [runs, splitBy_append (by rw [hc, Bool.not_false]), hu]
  rfl

variable (isPart) in
/-- Every text is one run, or a run, a character that is no part of it, and a text. -/
theorem runs_induction {p : Text → Prop} (last : ∀ u, (∀ c ∈ u, isPart c = true) → p u)
    (step : ∀ u c v, (∀ d ∈ u, isPart d = true) → isPart c = false → p v → p (u ++ c :: v))
    (t : Text) : p t := by
  induction hn : t.length using Nat.strong_induction_on generalizing t with
  | _ n ih =>
    have hrun : ∀ c ∈ t.takeWhile isPart, isPart c = true := fun c hc => List.mem_takeWhile_imp hc
    have hsplit := List.takeWhile_append_dropWhile (p := isPart) (l := t)
    cases hrest : t.dropWhile isPart with
    | nil =>
      rw [hrest, List.append_nil] at hsplit
      exact last t (hsplit ▸ hrun)
    | cons c v =>
      have hc : isPart c = false := by
        have hhead := List.head_dropWhile_not (l := t) isPart (hrest ▸ List.cons_ne_nil c v)
        simpa only [hrest, List.head_cons] using hhead
      rw [hrest] at hsplit
      rw [← hsplit]
      refine step _ c v hrun hc (ih v.length ?_ v rfl)
      rw [← hn, ← hsplit, List.length_append, List.length_cons]
      omega

/-- **Run by run.** Of two functions that treat runs apart, where one never gives a shorter text for a
run of `t` than the other, both agree on `t` exactly if they agree on every run of it. -/
theorem eq_iff_forall_runs {f g : Text → Text} (hf : TreatsApart isPart f)
    (hg : TreatsApart isPart g) {t : Text}
    (hlength : ∀ w ∈ runs isPart t, (g w).length ≤ (f w).length) :
    f t = g t ↔ ∀ w ∈ runs isPart t, f w = g w := by
  -- The length of the whole goes along in the induction: no run can make up for another one.
  refine (?_ : (g t).length ≤ (f t).length ∧ (f t = g t ↔ ∀ w ∈ runs isPart t, f w = g w)).2
  induction t using runs_induction isPart with
  | last u hu =>
    rw [runs_of_forall hu] at hlength ⊢
    exact ⟨hlength u (by simp), by simp⟩
  | step u c v hu hc ih =>
    rw [runs_append_cons hu hc, List.forall_mem_cons] at hlength
    obtain ⟨hle, hrest⟩ := ih hlength.2
    rw [runs_append_cons hu hc, List.forall_mem_cons, ← hrest, hf c hc, hg c hc]
    refine ⟨?_, fun heq => ?_, ?_⟩
    · have hrun := hlength.1
      simp only [List.length_append, List.length_cons]
      omega
    · have htotal := congrArg List.length heq
      simp only [List.length_append, List.length_cons] at htotal
      have hsame : (f u).length = (g u).length := by
        have hrun := hlength.1
        omega
      obtain ⟨hrun, hothers⟩ := List.append_inj heq hsame
      exact ⟨hrun, (List.cons.inj hothers).2⟩
    · rintro ⟨hrun, hothers⟩
      rw [hrun, hothers]

end Runs

end Stencil.Text
