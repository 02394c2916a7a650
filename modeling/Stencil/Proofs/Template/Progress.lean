import Mathlib.Order.Fin.Basic
import Stencil.Proofs.Template.Kind
import Stencil.Proofs.Template.Pass

/-!
# How much of a conditional is in a text

A text is read from left to right, and what has come by of a conditional is one of four things:
nothing, the beginning of an opening tag, the end of that tag, or a closing tag behind it.
`progress` is that reading. An opening tag always starts anew, so that only the last one before a
closing tag counts.

The main statement is `progress_eq_whole_iff`: **somewhere in a text a conditional is recognised
exactly if the reading gets to the closing tag.** The reading is monotone in what it starts with
(`progress_mono`), so texts can be compared part by part (`progress_append`), as long as no tag lies
across two parts (`Apart`).
-/

namespace Stencil.Template

open Text

/-! ### Reading -/

/-- What has come by of a conditional: nothing, the beginning of its opening tag, the end of that
tag, or its closing tag. -/
abbrev Seen := Fin 4

/-- What has come by when an opening tag begins. -/
def Seen.opened (seen : Seen) : Seen := if seen = 3 then 3 else 1

/-- What has come by when a tag ends. -/
def Seen.ended (seen : Seen) : Seen := if seen = 1 then 2 else seen

/-- What has come by when there is a closing tag. -/
def Seen.closed (seen : Seen) : Seen := if seen = 2 then 3 else seen

/-- What is left at least of what has come by, wherever the reading goes on. -/
def Seen.lasting (seen : Seen) : Seen := if seen = 2 then 1 else seen

/-- What has come by behind the first character of a text. -/
def Seen.advance (seen : Seen) (t : Text) : Seen :=
  if startsWith ifOpening t then seen.opened
  else if startsWith ifClosing t then seen.closed
  else if t.head? = some '>' then seen.ended
  else seen

/-- What has come by behind a text. -/
def progress : Seen → Text → Seen
  | seen, [] => seen
  | seen, c :: cs => progress (seen.advance (c :: cs)) cs

namespace Seen

theorem opened_mono : ∀ {a b : Seen}, a ≤ b → a.opened ≤ b.opened := by decide

theorem ended_mono : ∀ {a b : Seen}, a ≤ b → a.ended ≤ b.ended := by decide

theorem closed_mono : ∀ {a b : Seen}, a ≤ b → a.closed ≤ b.closed := by decide

theorem le_ended : ∀ a : Seen, a ≤ a.ended := by decide

@[simp] theorem ended_ended : ∀ a : Seen, a.ended.ended = a.ended := by decide

@[simp] theorem ended_lasting : ∀ a : Seen, a.lasting.ended = a.ended := by decide

theorem lasting_le_opened : ∀ {a b : Seen}, a.lasting ≤ b → a.lasting ≤ b.opened := by decide

theorem lasting_le_ended : ∀ {a b : Seen}, a.lasting ≤ b → a.lasting ≤ b.ended := by decide

theorem lasting_le_closed : ∀ {a b : Seen}, a.lasting ≤ b → a.lasting ≤ b.closed := by decide

theorem lasting_le : ∀ a : Seen, a.lasting ≤ a := by decide

variable {a b : Seen} {t : Text}

/-- Who has seen more has seen more behind the next character. -/
theorem advance_mono (h : a ≤ b) : a.advance t ≤ b.advance t := by
  unfold advance
  split_ifs
  · exact opened_mono h
  · exact closed_mono h
  · exact ended_mono h
  · exact h

/-- What lasts is not lost by the next character. -/
theorem lasting_le_advance (h : a.lasting ≤ b) : a.lasting ≤ b.advance t := by
  unfold advance
  split_ifs
  · exact lasting_le_opened h
  · exact lasting_le_closed h
  · exact lasting_le_ended h
  · exact h

/-- Where the same words begin, the same comes by. -/
theorem advance_congr {u : Text} (hopening : ifOpening <+: t ↔ ifOpening <+: u)
    (hclosing : ifClosing <+: t ↔ ifClosing <+: u) (hhead : t.head? = u.head?) :
    a.advance t = a.advance u := by
  have same : ∀ {word}, (word <+: t ↔ word <+: u) → startsWith word t = startsWith word u :=
    fun h => by rw [Bool.eq_iff_iff, startsWith_iff, startsWith_iff, h]
  rw [advance, advance, same hopening, same hclosing, hhead]

/-- Only at an angle bracket does anything come by. -/
theorem advance_cons {c : Char} {cs : Text} (hopen : c ≠ '<') (hend : c ≠ '>') :
    a.advance (c :: cs) = a := by
  have hword : ∀ {w : Text}, startsWith ('<' :: w) (c :: cs) = false := fun {w} => by
    refine startsWith_eq_false_iff.mpr fun h => hopen ?_
    exact (List.cons_prefix_cons.mp h).1.symm
  rw [advance, ifOpening_eq, ifClosing_eq, hword, hword]
  simp [hend]

theorem advance_end {cs : Text} : a.advance ('>' :: cs) = a.ended := by
  have hword : ∀ {w : Text}, startsWith ('<' :: w) ('>' :: cs) = false := fun {w} => by
    simp [startsWith, after?]
  rw [advance, ifOpening_eq, ifClosing_eq, hword, hword]
  simp

end Seen

variable {a b : Seen} {t u v : Text}

/-! ### The reading of a text -/

/-- **Monotone.** Who has seen more sees more. -/
theorem progress_mono (h : a ≤ b) (t : Text) : progress a t ≤ progress b t := by
  induction t generalizing a b with
  | nil => exact h
  | cons c cs ih => exact ih (Seen.advance_mono h)

/-- Whatever is in front of a text, the reading comes to it with what lasts at least. -/
theorem exists_progress_append (a : Seen) (u v : Text) :
    ∃ b, a.lasting ≤ b ∧ progress a (u ++ v) = progress b v := by
  suffices ∀ {c : Seen}, a.lasting ≤ c →
      ∃ b, a.lasting ≤ b ∧ progress c (u ++ v) = progress b v from
    this a.lasting_le
  induction u with
  | nil => exact fun {c} hc => ⟨c, hc, rfl⟩
  | cons d ds ih => exact fun hc => ih (Seen.lasting_le_advance hc)

/-- Text without angle brackets goes by. -/
theorem progress_append_of_not_mem (hopen : '<' ∉ u) (hend : '>' ∉ u) :
    progress a (u ++ v) = progress a v := by
  induction u with
  | nil => rfl
  | cons c cs ih =>
    simp only [List.mem_cons, not_or] at hopen hend
    rw [List.cons_append, progress, Seen.advance_cons (Ne.symm hopen.1) (Ne.symm hend.1),
      ih hopen.2 hend.2]

/-! ### Parts -/

/-- No tag of a conditional begins in a text and ends behind it. -/
def Apart (u v : Text) : Prop :=
  EveryTail (fun s => (ifOpening <+: s ++ v ↔ ifOpening <+: s) ∧
    (ifClosing <+: s ++ v ↔ ifClosing <+: s)) u

/-- Two texts apart from each other are read one after the other. -/
theorem progress_append (h : Apart u v) : progress a (u ++ v) = progress (progress a u) v := by
  induction u generalizing a with
  | nil => rfl
  | cons c cs ih =>
    have hsame : a.advance (c :: (cs ++ v)) = a.advance (c :: cs) :=
      Seen.advance_congr h.1.1 h.1.2 rfl
    rw [List.cons_append, progress, progress, hsame, ih h.2]

/-- A word that begins with an angle bracket does not go on at a character that is not in the rest
of it. -/
private theorem prefix_append_cons_iff {w : Text} {c : Char} (hc : c ∉ w) :
    ∀ {s : Text}, s ≠ [] → ('<' :: w <+: s ++ c :: v ↔ '<' :: w <+: s)
  | d :: ds, _ => by
    rw [List.cons_append, List.cons_prefix_cons, List.cons_prefix_cons]
    refine and_congr_right fun _ => ⟨fun h => prefix_of_prefix_append_cons h hc, fun h => ?_⟩
    exact h.trans (List.prefix_append ds (c :: v))

/-- No tag reaches over a character that none has behind its first one. -/
theorem apart_cons {c : Char} (hc : c ∉ ifOpening.tail ∧ c ∉ ifClosing.tail) (u v : Text) :
    Apart u (c :: v) := by
  rw [ifOpening_eq, ifClosing_eq] at hc
  rw [Apart, ifOpening_eq, ifClosing_eq]
  refine everyTail_of_split fun before d after _ => ?_
  exact ⟨prefix_append_cons_iff hc.1 (by simp), prefix_append_cons_iff hc.2 (by simp)⟩

/-- A word does not go on behind a character that it may only end with. -/
private theorem prefix_concat_append_iff {w : Text} {c : Char} (hc : c ∉ w.dropLast) (s : Text) :
    w <+: s ++ [c] ++ v ↔ w <+: s ++ [c] := by
  refine ⟨fun h => ?_, fun h => h.trans (List.prefix_append _ v)⟩
  rcases List.prefix_or_prefix_of_prefix h (List.prefix_append (s ++ [c]) v) with h | h
  · exact h
  · obtain ⟨x, rfl⟩ := h
    cases x using List.reverseRecOn with
    | nil => simp
    | append_singleton xs d => simp [← List.append_assoc] at hc

/-- No tag reaches over a character that none has before its last one. -/
theorem apart_concat {c : Char} (hc : c ∉ ifOpening.dropLast ∧ c ∉ ifClosing.dropLast)
    (u v : Text) :
    Apart (u ++ [c]) v := by
  refine everyTail_append.mpr ⟨everyTail_of_split fun before d after _ => ?_, ?_, trivial⟩
  · exact ⟨prefix_concat_append_iff hc.1 (d :: after), prefix_concat_append_iff hc.2 (d :: after)⟩
  · exact ⟨prefix_concat_append_iff hc.1 [], prefix_concat_append_iff hc.2 []⟩

/-! ### Texts without tags of conditionals -/

/-- In a text without any tag of a conditional nothing but the end of a tag comes by. -/
theorem progress_of_absent (hopening : ¬ ifOpening <:+: t) (hclosing : ¬ ifClosing <:+: t)
    (a : Seen) : a ≤ progress a t ∧ progress a t ≤ a.ended := by
  suffices ∀ b, a ≤ b → b ≤ a.ended → a ≤ progress b t ∧ progress b t ≤ a.ended from
    this a (le_refl a) a.le_ended
  induction t with
  | nil => exact fun b hle hge => ⟨hle, hge⟩
  | cons c cs ih =>
    intro b hle hge
    have hopen : startsWith ifOpening (c :: cs) = false :=
      startsWith_eq_false_iff.mpr fun h => hopening h.isInfix
    have hclose : startsWith ifClosing (c :: cs) = false :=
      startsWith_eq_false_iff.mpr fun h => hclosing h.isInfix
    refine ih (fun h => hopening (h.trans (List.suffix_cons c cs).isInfix))
      (fun h => hclosing (h.trans (List.suffix_cons c cs).isInfix)) _ ?_ ?_
    · rw [Seen.advance, hopen, hclose, if_neg Bool.false_ne_true, if_neg Bool.false_ne_true]
      split_ifs
      · exact hle.trans b.le_ended
      · exact hle
    · rw [Seen.advance, hopen, hclose, if_neg Bool.false_ne_true, if_neg Bool.false_ne_true]
      split_ifs
      · exact (Seen.ended_mono hge).trans (le_of_eq a.ended_ended)
      · exact hge

/-- The end of a tag comes by, whatever is in the tag. -/
theorem ended_le_progress (a : Seen) (u : Text) : a.ended ≤ progress a (u ++ ['>']) := by
  obtain ⟨b, hb, heq⟩ := exists_progress_append a u ['>']
  rw [heq, progress, Seen.advance_end, progress, ← a.ended_lasting]
  exact Seen.ended_mono hb

/-! ### Conditionals -/

/-- Once a conditional has been seen, it stays seen. -/
private theorem progress_three (t : Text) : progress 3 t = 3 := by
  induction t with
  | nil => rfl
  | cons c cs ih =>
    have hkeep : Seen.advance 3 (c :: cs) = 3 := by
      unfold Seen.advance
      split_ifs <;> rfl
    rw [progress, hkeep, ih]

private theorem eq_three_of_le : ∀ {a : Seen}, 3 ≤ a → a = 3 := by decide

/-- A conditional is read with its condition if the attribute and the rest are there. -/
private theorem exists_of_conditionalWith? (h : (conditionalWith? t).isSome) :
    ∃ value v, attribute? "condition".toList t = some (value, v) ∧
      (restAndBody? ifOpening ifClosing v).isSome := by
  simp only [conditionalWith?, Option.bind_eq_bind, Option.isSome_iff_exists,
    Option.bind_eq_some_iff] at h
  obtain ⟨-, ⟨value, v⟩, hattribute, found, hfound, -⟩ := h
  exact ⟨value, v, hattribute, Option.isSome_iff_exists.mpr ⟨found, hfound⟩⟩

private theorem isSome_conditionalWithout?_iff :
    (conditionalWithout? t).isSome = (restAndBody? ifOpening ifClosing t).isSome := by
  rw [conditionalWithout?]
  cases restAndBody? ifOpening ifClosing t <;> rfl

/-- Behind the end of an opening tag, a body gets the reading to the closing tag. -/
private theorem progress_of_bodyUntil? (h : (bodyUntil? ifOpening ifClosing t).isSome) :
    progress 2 t = 3 := by
  -- no opening tag comes before the closing tag that ends the body
  induction t with
  | nil => simp [bodyUntil?] at h
  | cons c cs ih =>
    rw [bodyUntil?] at h
    rw [progress]
    cases hclose : after? ifClosing (c :: cs) with
    | some rest =>
      have hnot : startsWith ifOpening (c :: cs) = false := by
        rw [eq_append_of_after? hclose, ifClosing_eq, ifOpening_eq]
        rfl
      have hstart : startsWith ifClosing (c :: cs) = true := by rw [startsWith, hclose]; rfl
      rw [Seen.advance, hnot, hstart]
      exact progress_three cs
    | none =>
      rw [hclose] at h
      dsimp only at h
      split_ifs at h with hopen
      · simp at h
      · have hstart : startsWith ifClosing (c :: cs) = false := by rw [startsWith, hclose]; rfl
        have hkeep : Seen.advance 2 (c :: cs) = 2 := by
          rw [Seen.advance, if_neg hopen, hstart, if_neg Bool.false_ne_true]
          split_ifs <;> rfl
        rw [hkeep]
        exact ih (by simpa using h)

/-- Behind the beginning of an opening tag, the rest of it and a body get the reading to the closing
tag. -/
private theorem progress_of_restAndBody? (h : (restAndBody? ifOpening ifClosing t).isSome)
    (ha : 1 ≤ a) : progress a t = 3 := by
  rw [restAndBody?] at h
  cases hend : tagEnd? t with
  | none => simp [hend] at h
  | some v =>
    rw [hend] at h
    obtain ⟨u, rfl⟩ := eq_of_tagEnd? hend
    have hbody := progress_of_bodyUntil? (by simpa using h)
    have hended : 2 ≤ progress a (u ++ ['>']) :=
      (Seen.ended_mono ha).trans (ended_le_progress a u)
    rw [progress_append (apart_concat (by decide) u v)]
    exact eq_three_of_le (hbody ▸ progress_mono hended v)

/-- Behind a conditional, one has been seen. -/
private theorem progress_of_conditional? (h : (conditional? t).isSome) (a : Seen) :
    progress a t = 3 := by
  cases hword : after? ifOpening t with
  | none => simp [conditional?, hword] at h
  | some r =>
    obtain rfl := eq_append_of_after? hword
    have hopened : 1 ≤ a.opened := by unfold Seen.opened; split_ifs <;> decide
    have hread : progress a (ifOpening ++ r) = progress a.opened r := by
      have hadvance : a.advance (ifOpening ++ r) = a.opened := by
        rw [Seen.advance, if_pos (startsWith_iff.mpr (List.prefix_append _ r))]
      rw [ifOpening_eq] at hadvance ⊢
      rw [List.cons_append, progress, ← List.cons_append, hadvance,
        progress_append_of_not_mem (by decide) (by decide)]
    have hboth : ((conditionalWith? r).or (conditionalWithout? r)).isSome := by
      simpa [conditional?, after?_append] using h
    rw [hread]
    rw [Option.isSome_or, Bool.or_eq_true] at hboth
    -- with a condition or without one, the rest of the tag and a body follow
    rcases hboth with hwith | hwithout
    · obtain ⟨value, v, hattribute, hrest⟩ := exists_of_conditionalWith? hwith
      obtain ⟨x, rfl, -⟩ := exists_of_attribute? hattribute
      obtain ⟨b, hb, heq⟩ := exists_progress_append a.opened (x ++ value ++ ['"']) v
      rw [heq]
      refine progress_of_restAndBody? hrest (le_trans ?_ hb)
      unfold Seen.opened
      split_ifs <;> decide
    · exact progress_of_restAndBody? (isSome_conditionalWithout?_iff ▸ hwithout) hopened

/-- An opening tag with a body behind it makes a conditional. -/
private theorem isSome_conditional?_of_opening {c : Char} {cs : Text}
    (hopen : startsWith ifOpening (c :: cs) = true)
    (h : (restAndBody? ifOpening ifClosing cs).isSome) : (conditional? (c :: cs)).isSome := by
  obtain ⟨r, hr⟩ := startsWith_iff.mp hopen
  obtain ⟨rfl, rfl⟩ : '<' = c ∧ ['h', 'b', '-', 'i', 'f'] ++ r = cs := by
    simpa [ifOpening_eq] using hr
  rw [restAndBody?_append_of_not_mem (by decide)] at h
  rw [← hr, conditional?, after?_append, Option.bind_eq_bind, Option.bind_some, Option.isSome_or,
    isSome_conditionalWithout?_iff, h, Bool.or_true]

/-- The end of a tag is looked for behind every other character. -/
private theorem restAndBody?_cons_of_ne {c : Char} (hc : c ≠ '>') (cs : Text) :
    restAndBody? ifOpening ifClosing (c :: cs) = restAndBody? ifOpening ifClosing cs := by
  rw [← List.singleton_append, restAndBody?_append_of_not_mem (by simpa using hc.symm)]

private theorem restAndBody?_end (cs : Text) :
    restAndBody? ifOpening ifClosing ('>' :: cs) = bodyUntil? ifOpening ifClosing cs := by
  rw [restAndBody?, tagEnd?, if_pos rfl]
  rfl

/-- Where no tag begins, a body goes on. -/
private theorem isSome_bodyUntil?_cons {c : Char} {cs : Text}
    (hopen : ¬ startsWith ifOpening (c :: cs) = true)
    (hclose : ¬ startsWith ifClosing (c :: cs) = true) :
    (bodyUntil? ifOpening ifClosing (c :: cs)).isSome =
      (bodyUntil? ifOpening ifClosing cs).isSome := by
  have hnone : after? ifClosing (c :: cs) = none := by simpa [startsWith] using hclose
  rw [bodyUntil?, hnone]
  dsimp only
  rw [if_neg hopen, Option.isSome_map]

/-- What the reading needs to get to the closing tag, by what has come by before. -/
private theorem exists_of_progress :
    (progress 0 t = 3 → ∃ s, s <:+ t ∧ (conditional? s).isSome) ∧
    (progress 1 t = 3 → (restAndBody? ifOpening ifClosing t).isSome ∨
      ∃ s, s <:+ t ∧ (conditional? s).isSome) ∧
    (progress 2 t = 3 → (bodyUntil? ifOpening ifClosing t).isSome ∨
      ∃ s, s <:+ t ∧ (conditional? s).isSome) := by
  -- a character leads from any of the three states to any other, so all three are shown at once
  induction t with
  | nil => exact ⟨fun h => absurd h (by decide), fun h => absurd h (by decide),
      fun h => absurd h (by decide)⟩
  | cons c cs ih =>
    obtain ⟨ih0, ih1, ih2⟩ := ih
    have later : (∃ s, s <:+ cs ∧ (conditional? s).isSome) →
        ∃ s, s <:+ c :: cs ∧ (conditional? s).isSome :=
      fun ⟨s, hs, h⟩ => ⟨s, hs.trans (List.suffix_cons c cs), h⟩
    simp only [progress]
    by_cases hopen : startsWith ifOpening (c :: cs) = true
    · -- an opening tag begins here, whatever has come by before
      have hadvance : ∀ b : Seen, b ≠ 3 → b.advance (c :: cs) = 1 := fun b hb => by
        rw [Seen.advance, if_pos hopen, Seen.opened, if_neg hb]
      have hhere : progress 1 cs = 3 → ∃ s, s <:+ c :: cs ∧ (conditional? s).isSome := by
        intro h
        rcases ih1 h with h | h
        · exact ⟨c :: cs, List.suffix_refl _, isSome_conditional?_of_opening hopen h⟩
        · exact later h
      rw [hadvance 0 (by decide), hadvance 1 (by decide), hadvance 2 (by decide)]
      exact ⟨hhere, fun h => .inr (hhere h), fun h => .inr (hhere h)⟩
    by_cases hclose : startsWith ifClosing (c :: cs) = true
    · -- a closing tag ends the body behind an opening tag, and it has an end of a tag of its own
      obtain ⟨rest, hrest⟩ := Option.isSome_iff_exists.mp hclose
      have hangle : c ≠ '>' := by
        have hstart := eq_append_of_after? hrest
        rw [ifClosing_eq] at hstart
        obtain rfl := (List.cons.inj hstart).1
        decide
      have hadvance : ∀ b : Seen, b.advance (c :: cs) = b.closed := fun b => by
        rw [Seen.advance, if_neg hopen, if_pos hclose]
      rw [hadvance, hadvance, hadvance, restAndBody?_cons_of_ne hangle, bodyUntil?, hrest]
      exact ⟨fun h => later (ih0 h), fun h => (ih1 h).imp_right later, fun _ => .inl rfl⟩
    rw [isSome_bodyUntil?_cons hopen hclose]
    by_cases hend : c = '>'
    · subst hend
      rw [Seen.advance_end, Seen.advance_end, Seen.advance_end, restAndBody?_end]
      exact ⟨fun h => later (ih0 h), fun h => (ih2 h).imp_right later,
        fun h => (ih2 h).imp_right later⟩
    · have hadvance : ∀ b : Seen, b.advance (c :: cs) = b := fun b => by
        rw [Seen.advance, if_neg hopen, if_neg hclose, if_neg (by simpa using hend)]
      rw [hadvance, hadvance, hadvance, restAndBody?_cons_of_ne hend]
      exact ⟨fun h => later (ih0 h), fun h => (ih1 h).imp_right later,
        fun h => (ih2 h).imp_right later⟩

/-- **Conditionals.** Somewhere in a text a conditional is recognised exactly if the reading gets to
a closing tag. -/
theorem progress_eq_whole_iff :
    progress 0 t = 3 ↔ ∃ s, s <:+ t ∧ (conditional? s).isSome := by
  refine ⟨exists_of_progress.1, fun ⟨s, ⟨u, hu⟩, h⟩ => ?_⟩
  obtain ⟨b, -, heq⟩ := exists_progress_append 0 u s
  rw [← hu, heq]
  exact progress_of_conditional? h b

end Stencil.Template
