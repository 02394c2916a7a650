import Stencil.Condition
import Stencil.Proofs.Text.Fields

/-!
# The levels of a condition

Evaluation takes a condition apart at the first kind of sign that it has, and starts again with every part:
it trims it and looks for all signs once more. A condition may also be read on fixed levels: alternatives,
conjuncts in them, and signs in front of a path (`decideLevels`). The two come to the same, since a part
between signs has no such sign, also where signs overlap (`Text.infix_of_mem_splitAt`), and since it does
not matter on which level white space is trimmed.

The main statement is `decideWith_eq_decideLevels`: **taking a condition apart is reading it level by
level**, however paths are looked up. It is about every lookup, so that it also says which paths are looked
up, and in which order: all of them, as they stand in the text (`decideWith_visit`). With values looked up
in data it is `evaluate_str`.
-/

namespace Stencil.Condition

open Text

variable {t : Text}

/-! ### The reading -/

/-- The number of signs `!` at the front of a text, and the text behind them and the white space
among them. -/
def negations : Text → Nat × Text
  | [] => (0, [])
  | c :: cs =>
    if c = '!' then
      let (n, rest) := negations cs
      (n + 1, rest)
    else if Text.isBlank c then negations cs
    else (0, c :: cs)

/-- The truth of a path behind signs. -/
def evaluateConjunct (data : Value) (t : Text) : Bool :=
  let (n, path) := negations (Text.trim t)
  (data.resolve path).isTruthy != (n % 2 == 1)

/-- The truth of a condition for data that is there: some alternative has only true conjuncts. -/
def evaluateText (data : Value) (t : Text) : Bool :=
  (alternatives t).any fun alternative => (conjuncts alternative).all (evaluateConjunct data)

/-- The paths that a condition looks at, in order. -/
def paths (t : Text) : List Text :=
  (alternatives t).flatMap fun alternative =>
    (conjuncts alternative).map fun conjunct => (negations (Text.trim conjunct)).2

/-- Refuses a condition with a path that cannot be read; all paths are looked at. -/
def checkPaths (t : Text) : Except Failure Unit :=
  (paths t).forM fun path => (Path.read path).map fun _ => ()

/-! ### Signs -/

theorem absent_trim {sign : Text} (h : ¬ sign <:+: t) : ¬ sign <:+: trim t := fun hsign =>
  h (hsign.trans (trim_within t))

/-- It does not matter whether white space is trimmed around a condition or around its conjuncts. -/
theorem map_conjuncts_trim {β : Type} {f : Text → β} (hf : ∀ t, f (trim t) = f t) (t : Text) :
    ((alternatives (trim t)).map fun a => (conjuncts a).map f) =
      (alternatives t).map fun a => (conjuncts a).map f :=
  map_splitAt_trim (fun a => map_splitAt_trim hf (by decide) (by decide) a) (by decide) (by decide) t

theorem negations_append_blanks {blanks : Text} (h : ∀ c ∈ blanks, isBlank c = true)
    (t : Text) : negations (blanks ++ t) = negations t := by
  induction blanks with
  | nil => rfl
  | cons c cs ih =>
    have hc := h c (by simp)
    have hne : c ≠ '!' := by
      rintro rfl
      exact absurd hc (by decide)
    rw [List.cons_append, negations, if_neg hne, if_pos hc, ih fun d hd => h d (by simp [hd])]

theorem negations_cons {c : Char} (hne : c ≠ '!') (hblank : isBlank c = false) (cs : Text) :
    negations (c :: cs) = (0, c :: cs) := by
  rw [negations, if_neg hne, if_neg (by simp [hblank])]

/-- A sign in front of a trimmed text is one more than behind it. -/
theorem negations_of_sign {rest : Text} (h : trim t = '!' :: rest) :
    negations (trim t) = ((negations (trim rest)).1 + 1, (negations (trim rest)).2) := by
  obtain ⟨blanks, hblanks, hblank⟩ :=
    exists_eq_trim_of_suffix (h ▸ List.suffix_cons '!' rest : rest <:+ trim t)
  rw [h, negations, if_pos rfl, hblanks, negations_append_blanks hblank, ← hblanks]

theorem negations_of_unsigned (h : after? ['!'] (trim t) = none) :
    negations (trim t) = (0, trim t) := by
  cases htrimmed : trim t with
  | nil => rfl
  | cons c rest =>
    have hne : c ≠ '!' := by
      rintro rfl
      rw [htrimmed] at h
      cases h
    exact negations_cons hne (isBlank_head?_trim t c (by rw [htrimmed]; rfl)) rest

/-! ### Taking a condition apart -/

section Levels

variable {m : Type → Type} [Monad m] (look : Text → m Bool)

/-- The truth of a conjunct: that of its path, turned around by every sign. -/
def decideConjunct (conjunct : Text) : m Bool := do
  pure ((← look (negations (trim conjunct)).2) != ((negations (trim conjunct)).1 % 2 == 1))

/-- The truth of an alternative. -/
def decideAlternative (alternative : Text) : m Bool := do
  let results ← (conjuncts alternative).mapM (decideConjunct look)
  pure (results.all id)

/-- The truth of a condition, level by level. -/
def decideLevels (t : Text) : m Bool := do
  let results ← (alternatives t).mapM (decideAlternative look)
  pure (results.any id)

variable [LawfulMonad m]

/-- Evaluation without proofs that the parts are shorter. -/
theorem decideWith_eq (t : Text) :
    decideWith look t =
      if has orSign (trim t) then do
        let results ← (alternatives (trim t)).mapM fun part => decideWith look (trim part)
        pure (results.any id)
      else if has andSign (trim t) then do
        let results ← (conjuncts (trim t)).mapM fun part => decideWith look (trim part)
        pure (results.all id)
      else
        match after? ['!'] (trim t) with
        | some rest => do pure (!(← decideWith look (trim rest)))
        | none => look (trim t) := by
  have hattach : ∀ l : List Text, (l.attach.mapM fun part => decideWith look (trim part.1)) =
      l.mapM fun part => decideWith look (trim part) := fun l => by
    rw [List.mapM_subtype (g := fun part => decideWith look (trim part)) fun _ _ => rfl,
      List.unattach_attach]
  rw [decideWith]
  simp only [hattach]
  split_ifs with hor hand
  · rfl
  · rfl
  · split <;> next hsign => rw [hsign]

theorem decideWith_trim (t : Text) : decideWith look (trim t) = decideWith look t := by
  rw [decideWith_eq, decideWith_eq look t, trim_trim]

/-- Work on the members of a list depends on the work on each of them. -/
theorem mapM_congr {α β : Type} {f g : α → m β} {l : List α} (h : ∀ a ∈ l, f a = g a) :
    l.mapM f = l.mapM g := by
  induction l with
  | nil => rfl
  | cons a l ih =>
    rw [List.mapM_cons, List.mapM_cons, h a List.mem_cons_self,
      ih fun b hb => h b (List.mem_cons_of_mem a hb)]

theorem mapM_splitAt_trim {α : Type} {f : Text → m α} (hf : ∀ t, f (trim t) = f t)
    {separator : Text} (hne : separator ≠ []) (hblank : ∀ c ∈ separator, isBlank c = false)
    (t : Text) : (splitAt separator (trim t)).mapM f = (splitAt separator t).mapM f := by
  have hmap : ∀ l : List Text, l.mapM f = (l.map f).mapM id := fun l => by
    rw [List.mapM_map, Function.id_comp]
  rw [hmap, map_splitAt_trim hf hne hblank, ← hmap]

/-- Without a sign between parts there are only signs in front, one taken off after the other. -/
theorem decideWith_of_absent (hor : ¬ orSign <:+: t) (hand : ¬ andSign <:+: t) :
    decideWith look t = decideConjunct look t := by
  induction hlength : t.length using Nat.strong_induction_on generalizing t with
  | h length ih =>
    subst hlength
    rw [decideWith_eq, if_neg (mt has_iff.mp (absent_trim hor)),
      if_neg (mt has_iff.mp (absent_trim hand)), decideConjunct]
    cases hsign : after? ['!'] (trim t) with
    | some rest =>
      have htrimmed : trim t = '!' :: rest := eq_append_of_after? hsign
      have hin : trim rest <:+: t :=
        (trim_within rest).trans ((htrimmed ▸ List.infix_cons (List.infix_refl rest)).trans (trim_within t))
      have hshorter : (trim rest).length < t.length := by
        have hrest := length_trim_le rest
        have hlength := length_trim_le t
        rw [htrimmed, List.length_cons] at hlength
        omega
      have hrest := ih _ hshorter (fun h => hor (h.trans hin)) (fun h => hand (h.trans hin)) rfl
      have hparity : ∀ n, ((n + 1) % 2 == 1) = !(n % 2 == 1) := fun n => by
        rcases Nat.mod_two_eq_zero_or_one n with h | h <;> simp [Nat.add_mod, h]
      have hturn : ∀ a b : Bool, (!(a != b)) = (a != !b) := by decide
      dsimp only
      rw [hrest, decideConjunct, negations_of_sign htrimmed, trim_trim]
      simp only [hparity, bind_pure_comp, Functor.map_map]
      exact congrArg (· <$> _) (funext fun b => hturn b _)
    | none =>
      rw [negations_of_unsigned hsign]
      simp

omit [LawfulMonad m] in
theorem decideConjunct_trim (t : Text) : decideConjunct look (trim t) = decideConjunct look t := by
  rw [decideConjunct, trim_trim, decideConjunct]

theorem decideAlternative_trim (t : Text) :
    decideAlternative look (trim t) = decideAlternative look t := by
  rw [decideAlternative, conjuncts,
    mapM_splitAt_trim (decideConjunct_trim look) (by decide) (by decide) t]
  rfl

/-- Without a sign between alternatives there are conjuncts. -/
theorem decideWith_of_absent_or (hor : ¬ orSign <:+: t) :
    decideWith look t = decideAlternative look t := by
  have hne : andSign ≠ [] := by decide
  by_cases hand : andSign <:+: trim t
  · have hpart : ∀ part ∈ conjuncts (trim t),
        decideWith look (trim part) = decideConjunct look part := fun part hpart => by
      obtain ⟨hin, habsent⟩ := infix_of_mem_splitAt hne hpart
      rw [decideWith_trim, decideWith_of_absent look _ habsent]
      exact fun h => hor (h.trans (hin.trans (trim_within t)))
    rw [decideWith_eq, if_neg (mt has_iff.mp (absent_trim hor)), if_pos (has_iff.mpr hand),
      ← decideAlternative_trim, decideAlternative, mapM_congr hpart]
  · have hsingle : conjuncts (trim t) = [trim t] := splitAt_of_absent hne hand
    rw [← decideAlternative_trim, decideAlternative, hsingle, ← decideWith_trim,
      decideWith_of_absent look (absent_trim hor) hand]
    simp

/-- **Two levels.** Taking a condition apart at the signs that it has is reading it level by level. -/
theorem decideWith_eq_decideLevels (t : Text) : decideWith look t = decideLevels look t := by
  have hne : orSign ≠ [] := by decide
  have htrim : decideLevels look (trim t) = decideLevels look t := by
    rw [decideLevels, alternatives,
      mapM_splitAt_trim (decideAlternative_trim look) hne (by decide) t]
    rfl
  rw [← htrim]
  by_cases hor : orSign <:+: trim t
  · have hpart : ∀ part ∈ alternatives (trim t),
        decideWith look (trim part) = decideAlternative look part := fun part hpart => by
      rw [decideWith_trim, decideWith_of_absent_or look (infix_of_mem_splitAt hne hpart).2]
    rw [decideWith_eq, if_pos (has_iff.mpr hor), decideLevels, mapM_congr hpart]
  · have hsingle : alternatives (trim t) = [trim t] := splitAt_of_absent hne hor
    rw [← decideWith_trim, decideWith_of_absent_or look hor, decideLevels, hsingle]
    simp

/-- What is visited and what comes of it, apart. -/
theorem mapM_visit {α β : Type} (visit : α → m Unit) (value : α → β) (l : List α) :
    (l.mapM fun a => (fun _ => value a) <$> visit a) = (fun _ => l.map value) <$> l.forM visit := by
  induction l with
  | nil => simp
  | cons a l ih => simp [ih]

theorem forM_flatMap {α β : Type} (visit : β → m Unit) (parts : α → List β) (l : List α) :
    (l.flatMap parts).forM visit = l.forM fun a => (parts a).forM visit := by
  induction l with
  | nil => rfl
  | cons a l ih => simpa using congrArg (fun rest => forM (parts a) visit >>= fun _ => rest) ih

/-- The truth of a conjunct whose path has a truth. -/
def holdsConjunct (truth : Text → Bool) (conjunct : Text) : Bool :=
  truth (negations (trim conjunct)).2 != ((negations (trim conjunct)).1 % 2 == 1)

/-- **Every path is looked up**, in order, whatever comes of it, and the truth is that of the reading. -/
theorem decideWith_visit (visit : Text → m Unit) (truth : Text → Bool) (t : Text) :
    decideWith (fun path => (fun _ => truth path) <$> visit path) t =
      (fun _ => (alternatives t).any fun alternative =>
        (conjuncts alternative).all (holdsConjunct truth)) <$> (paths t).forM visit := by
  have hconjunct : decideConjunct (fun path => (fun _ => truth path) <$> visit path) =
      fun conjunct =>
        (fun _ => holdsConjunct truth conjunct) <$> visit (negations (trim conjunct)).2 := by
    funext conjunct
    simp [decideConjunct, holdsConjunct]
  have halternative : decideAlternative (fun path => (fun _ => truth path) <$> visit path) =
      fun alternative => (fun _ => (conjuncts alternative).all (holdsConjunct truth)) <$>
        ((conjuncts alternative).map fun conjunct => (negations (trim conjunct)).2).forM visit := by
    funext alternative
    rw [decideAlternative, hconjunct, mapM_visit]
    simp
  rw [decideWith_eq_decideLevels, decideLevels, halternative, mapM_visit, paths, forM_flatMap]
  simp

end Levels

/-! ### Evaluation against data -/

theorem lookUp_eq (data : Value) (path : Text) :
    lookUp data path = (fun _ => (data.resolve path).isTruthy) <$> (Path.read path).map fun _ => () := by
  rw [lookUp, Value.lookup, Path.read]
  cases (Path.fields path).forM Path.checkField <;> rfl

/-- Where there is data, a condition that is not refused has its truth as a text. -/
theorem evaluate_str (condition : String) {data : Value} (hdata : data.isNothing = false) :
    evaluate (.str condition) data =
      (checkPaths condition.toList).map fun _ => evaluateText data condition.toList := by
  have hstr : (Value.str condition).text? = some condition := rfl
  rw [evaluate, hstr]
  simp only [hdata, Bool.false_eq_true, if_false]
  rw [funext (lookUp_eq data), decideWith_visit]
  rfl

end Stencil.Condition
