import Stencil.Proofs.Text.Scanning
import Stencil.Template.Cleanup

/-!
# Markup without anything to clean up

A text is `Bland` if none of its brackets opens a comment and none of its attributes begins like a host
attribute. Texts put together of bland parts are bland, and **cleaning up leaves a bland text as it is**
(`stripComments_of_bland`, `stripAttributes_of_bland`).

Constants in markup need not be bland, since anything may stand behind a space in them. They are cleaned up
of nothing, either: no comment starts where no `!` stands behind an angle bracket
(`stripComments_of_uncommented`), and an attribute has quotes (`stripAttributes_of_absent`).
-/

namespace Stencil.Template

open Text

/-- The beginning of a comment. -/
def commentOpening : Text := "<!--".toList

theorem commentOpening_eq : commentOpening = ['<', '!', '-', '-'] := by decide

/-- Without the opening of a comment there is none. -/
theorem comment?_eq_none {t : Text} (h : ¬ commentOpening <+: t) : comment? t = none := by
  have hnone : after? "<!--".toList t = none := after?_eq_none_iff.mpr h
  rw [comment?, hnone]

/-- What may come behind a character of bland text: no `!` behind an angle bracket, and only the first
letter of `array` or `itemVar` behind white space. -/
def IsBlandStep : Text → Prop
  | c :: u => (c = '<' → ∃ d ∈ u.head?, d ≠ '!') ∧
      (isBlank c = true → ∃ d ∈ u.head?, d = 'a' ∨ d = 'i')
  | [] => True

/-- A text in which no comment starts, and no attribute but `array` and `itemVar`. -/
def Bland (t : Text) : Prop := EveryTail IsBlandStep t

/-- Bland texts side by side are bland. -/
theorem Bland.append {t u : Text} (ht : Bland t) (hu : Bland u) : Bland (t ++ u) := by
  refine everyTail_append.mpr ⟨ht.imp fun s hs => ?_, hu⟩
  cases s with
  | nil =>
    cases u with
    | nil => trivial
    | cons d u => exact hu.1
  | cons c s =>
    have stays : ∀ {p : Char → Prop}, (∃ d ∈ s.head?, p d) → ∃ d ∈ (s ++ u).head?, p d := by
      rintro p ⟨d, hd, hp⟩
      have hs' : s.head? = some d := hd
      exact ⟨d, by simp [List.head?_append, hs'], hp⟩
    exact ⟨fun hc => stays (hs.1 hc), fun hc => stays (hs.2 hc)⟩

/-- A text without angle brackets and white space is bland. -/
theorem bland_of_forall {t : Text} (h : ∀ c ∈ t, c ≠ '<' ∧ isBlank c = false) : Bland t := by
  refine everyTail_of_forall_mem fun c hc s => ⟨fun he => absurd he (h c hc).1, fun hb => ?_⟩
  rw [(h c hc).2] at hb
  cases hb

/-- A bland text has no comments to strip. -/
theorem stripComments_of_bland {t : Text} (h : Bland t) : stripComments t = t := by
  refine replaceEach_of_none _ fun s hs => comment?_eq_none ?_
  rw [commentOpening_eq]
  rintro ⟨rest, rfl⟩
  obtain ⟨d, hd, hne⟩ := (h.of_suffix hs (by simp)).1 rfl
  exact hne (Option.some.inj hd).symm

/-- A bland text has no host attributes to strip. -/
theorem stripAttributes_of_bland {t : Text} (h : Bland t) : stripAttributes ["data-id"] t = t := by
  have hlit : ["data-id"].map String.toList = [['d', 'a', 't', 'a', '-', 'i', 'd']] := by decide
  rw [stripAttributes, if_neg (by decide), hlit]
  refine replaceEach_of_none _ fun s hs => ?_
  rw [hostAttribute?, Option.map_eq_none_iff]
  cases s with
  | nil => rfl
  | cons c u =>
    cases hc : isBlank c with
    | false =>
      rw [List.takeWhile_cons, hc, if_neg (by simp)]
      rfl
    | true =>
      obtain ⟨d, hd, hletter⟩ := (h.of_suffix hs (by simp)).2 hc
      obtain ⟨v, rfl⟩ : ∃ v, u = d :: v := List.head?_eq_some_iff.mp hd
      have hblank : isBlank d = false := by rcases hletter with rfl | rfl <;> decide
      have hne : 'd' ≠ d := by rcases hletter with rfl | rfl <;> decide
      rw [List.takeWhile_cons, hc, if_pos rfl, List.takeWhile_cons, hblank, if_neg (by simp)]
      simp [spacedAttribute?, namedAttribute?, after?, hne]

/-! ### Markup in which constants stand -/

/-- A text in which no `!` stands behind an angle bracket. -/
def Uncommented (t : Text) : Prop :=
  EveryTail (fun s => ∀ u, s = '<' :: u → ∃ d ∈ u.head?, d ≠ '!') t

/-- Texts without comments have none side by side. -/
theorem Uncommented.append {t u : Text} (ht : Uncommented t) (hu : Uncommented u) :
    Uncommented (t ++ u) := by
  refine everyTail_append.mpr ⟨ht.imp fun s hs v hv => ?_, hu⟩
  cases s with
  | nil =>
    rw [List.nil_append] at hv
    subst hv
    exact hu.1 v rfl
  | cons c s =>
    obtain ⟨rfl, rfl⟩ := List.cons.inj hv
    obtain ⟨d, hd, hne⟩ := hs s rfl
    have hhead : s.head? = some d := hd
    exact ⟨d, by simp [List.head?_append, hhead], hne⟩

theorem uncommented_of_not_mem {t : Text} (h : '<' ∉ t) : Uncommented t :=
  everyTail_of_forall_mem fun c hc s u heq => by
    obtain ⟨rfl, -⟩ := List.cons.inj heq
    exact absurd hc h

/-- A tag that begins with another character than `!`. -/
theorem uncommented_tag {t : Text} (h : '<' ∉ t) {c : Char} (hhead : t.head? = some c) (hc : c ≠ '!') :
    Uncommented ('<' :: t) := by
  refine ⟨fun u hu => ?_, uncommented_of_not_mem h⟩
  obtain ⟨-, rfl⟩ := List.cons.inj hu
  exact ⟨c, hhead, hc⟩

theorem stripComments_of_uncommented {t : Text} (h : Uncommented t) : stripComments t = t := by
  refine replaceEach_of_none _ fun s hs => comment?_eq_none ?_
  rw [commentOpening_eq]
  rintro ⟨rest, rfl⟩
  obtain ⟨d, hd, hne⟩ := h.of_suffix hs (by simp) _ rfl
  exact hne (Option.some.inj hd).symm

/-- The name of a host attribute with what stands before its value. -/
def hostAttribute : Text := ['d', 'a', 't', 'a', '-', 'i', 'd', '=', '"']

/-- A text without a host attribute has none to strip. -/
theorem stripAttributes_of_absent {t : Text} (h : ¬ hostAttribute <:+: t) :
    stripAttributes ["data-id"] t = t := by
  have hlit : ["data-id"].map String.toList = [['d', 'a', 't', 'a', '-', 'i', 'd']] := by decide
  have hname : ∀ s, s <:+ t → namedAttribute? [['d', 'a', 't', 'a', '-', 'i', 'd']] s = none := by
    intro s hs
    have hnone : after? (['d', 'a', 't', 'a', '-', 'i', 'd'] ++ ['=', '"']) s = none :=
      after?_eq_none_iff.mpr fun hp => h (List.infix_iff_prefix_suffix.mpr ⟨s, hp, hs⟩)
    simp only [namedAttribute?, List.findSome?_cons, hnone]
    rfl
  have hspaced : ∀ n s, s <:+ t → spacedAttribute? [['d', 'a', 't', 'a', '-', 'i', 'd']] s n = none := by
    intro n s hs
    induction n with
    | zero => rfl
    | succ n ih => rw [spacedAttribute?, ih, hname _ ((List.drop_suffix _ s).trans hs), Option.none_or]
  rw [stripAttributes, if_neg (by decide), hlit]
  refine replaceEach_of_none _ fun s hs => ?_
  rw [hostAttribute?, hspaced _ s hs, Option.map_none]

end Stencil.Template
