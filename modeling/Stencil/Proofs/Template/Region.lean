import Stencil.Proofs.Template.Kind
import Stencil.Template.Alternative

/-!
# Finding the alternative of a conditional

The search for the alternative region walks over the tags of a body and counts the elements that are
open. A text `Passes` when the search goes over it and is behind it at the depth it came with, having
found nothing. Runs of text pass, and so does an element around what passes (`passes_pair`), whether
its name is that of a void element in another case or no name at all.

The main statement is `alternative?_append`: behind what passes, **the alternative that is found is the
one that was put there**.
-/

namespace Stencil.Template

open Text

/-- An alternative with more text before it. -/
def Alternative.prepend (t : Text) (a : Alternative) : Alternative :=
  { a with before := t ++ a.before }

@[simp] theorem Alternative.prepend_prepend (t u : Text) (a : Alternative) :
    (a.prepend u).prepend t = a.prepend (t ++ u) := by
  simp [Alternative.prepend]

/-- A text that the search for the alternative goes over, at any depth of open elements. -/
def Passes (t : Text) : Prop :=
  ∀ depth rest,
    findAlternative depth 0 (t ++ rest) = (findAlternative depth 0 rest).map (.prepend t)

/-- A text that the search goes over at one depth of open elements. -/
def PassesAt (depth : ℕ) (t : Text) : Prop :=
  ∀ rest, findAlternative depth 0 (t ++ rest) = (findAlternative depth 0 rest).map (.prepend t)

theorem passes_nil : Passes [] := fun depth rest => by
  have : Alternative.prepend [] = id := rfl
  simp [this]

/-- Texts that are gone over one after the other are gone over together. -/
theorem PassesAt.append {depth : ℕ} {t u : Text} (ht : PassesAt depth t) (hu : PassesAt depth u) :
    PassesAt depth (t ++ u) := fun rest => by
  rw [List.append_assoc, ht, hu, Option.map_map]
  congr 1
  funext a
  simp

/-- The same at every depth. -/
theorem Passes.append {t u : Text} (ht : Passes t) (hu : Passes u) : Passes (t ++ u) := fun depth =>
  PassesAt.append (ht depth) (hu depth)

/-! ### Tags -/

/-- A character that the names of tags are made of. -/
def isNameLetter (c : Char) : Bool :=
  isAsciiLetter c || isAsciiDigit c || c == '-' || c == '_' || c == ':'

private theorem isAscii_of_isNameLetter {c : Char} (h : isNameLetter c = true) :
    c.toNat < 0x80 := by
  simp only [isNameLetter, isAsciiLetter, isAsciiDigit, Bool.or_eq_true, Bool.and_eq_true,
    decide_eq_true_eq, beq_iff_eq, Char.le_def, UInt32.le_iff_toNat_le] at h
  rcases h with ((((⟨-, h⟩ | ⟨-, h⟩) | ⟨-, h⟩) | rfl) | rfl) | rfl
  all_goals first | decide | exact Nat.lt_of_le_of_lt h (by decide)

/-- The letters of names may stand in the name of a tag. -/
theorem isTagNameChar_of_isNameLetter {c : Char} (h : isNameLetter c = true) :
    isTagNameChar c = true := by
  have hascii := isAscii_of_isNameLetter h
  simp only [isNameLetter, Bool.or_eq_true, beq_iff_eq] at h
  rcases h with ((h | rfl) | rfl) | rfl
  · have hword : isAsciiWord c = true := by
      rcases h with h | h <;> simp [isAsciiWord, h]
    simp [isTagNameChar, isWord_of_isAsciiWord hascii hword]
  all_goals decide

theorem tagRest?_append {inside : Text} (h : '>' ∉ inside) (rest : Text) :
    tagRest? (inside ++ '>' :: rest) = some (inside, rest) := by
  induction inside with
  | nil => rfl
  | cons c cs ih =>
    simp only [List.mem_cons, not_or] at h
    rw [List.cons_append, tagRest?, if_neg (Ne.symm h.1), ih h.2]
    rfl

/-- A tag is read off its text. -/
theorem namedTag?_append {c : Char} {cs inside : Text} (hc : isAsciiLetter c = true)
    (hcs : ∀ x ∈ cs, isTagNameChar x = true) (hinside : '>' ∉ inside)
    (hhead : ∀ x ∈ inside.head?, isTagNameChar x = false) (isClosing : Bool) (rest : Text) :
    namedTag? isClosing (c :: cs ++ (inside ++ '>' :: rest)) =
      some (⟨isClosing, lower (c :: cs), inside.getLast? == some '/'⟩, rest) := by
  have hstop : (inside ++ '>' :: rest).takeWhile isTagNameChar = [] ∧
      (inside ++ '>' :: rest).dropWhile isTagNameChar = inside ++ '>' :: rest := by
    cases inside with
    | nil => simp [show isTagNameChar '>' = false from by decide]
    | cons x xs => simp [hhead x (by simp)]
  rw [List.cons_append, namedTag?, if_pos hc, List.takeWhile_append_of_pos hcs,
    List.dropWhile_append_of_pos hcs, hstop.1, hstop.2, tagRest?_append hinside]
  simp

/-! ### Going over tags -/

/-- Skipping a text leaves it in front of the alternative. -/
theorem findAlternative_skip (depth : ℕ) (u v : Text) :
    findAlternative depth u.length (u ++ v) = (findAlternative depth 0 v).map (.prepend u) := by
  induction u with
  | nil => exact (passes_nil depth v)
  | cons c cs ih =>
    rw [List.cons_append, List.length_cons, findAlternative, ih, Option.map_map]
    rfl

/-- The search goes over a tag as a whole, unless it is where the alternative begins. -/
theorem findAlternative_tag {x rest : Text} {tag : Tag} {depth : ℕ} (hx : x ≠ [])
    (h : tag? (x ++ rest) = some (tag, rest))
    (hname : tag.name ≠ elseName ∨ tag.isClosing = true ∨ depth ≠ 0) :
    findAlternative depth 0 (x ++ rest) =
      (findAlternative (depthAfter tag depth) 0 rest).map (.prepend x) := by
  cases x with
  | nil => exact absurd rfl hx
  | cons c cs =>
    have hlen : (cs ++ rest).length - rest.length = cs.length := by simp
    have hover : ¬ (decide (tag.name = elseName) && !tag.isClosing && depth == 0) = true := by
      rcases hname with h | h | h <;> simp [h]
    rw [List.cons_append] at h ⊢
    rw [findAlternative, h]
    simp only [hover, hlen, findAlternative_skip, Option.map_map]
    rfl

private theorem passes_char {c : Char} (h : ∀ rest, tag? (c :: rest) = none) : Passes [c] :=
  fun depth rest => by
    rw [List.singleton_append, findAlternative, h]
    rfl

private theorem tag?_eq_none {c : Char} (hc : c ≠ '<') (rest : Text) : tag? (c :: rest) = none := by
  unfold tag?
  split <;> simp_all

/-- Text without an angle bracket passes. -/
theorem passes_of_not_mem {t : Text} (h : '<' ∉ t) : Passes t := by
  induction t with
  | nil => exact passes_nil
  | cons c cs ih =>
    simp only [List.mem_cons, not_or] at h
    exact (passes_char (tag?_eq_none (Ne.symm h.1))).append (ih h.2)

/-! ### Elements -/

section Elements

variable {name inside inner : Text}

/-- What does not begin with a letter is no name of a tag. -/
private theorem passes_nameless {u : Text} (hu : '<' ∉ u)
    (h : ∀ rest, tag? ('<' :: (u ++ rest)) = none) : Passes ('<' :: u) := fun depth rest => by
  rw [List.cons_append, findAlternative, h]
  simp only [passes_of_not_mem hu depth rest, Option.map_map]
  rfl

private theorem angle_not_mem (hname : ∀ x ∈ name, isNameLetter x = true) : '<' ∉ name :=
  fun h => absurd (hname _ h) (by decide)

private theorem namedTag?_eq_none {c : Char} (hc : isAsciiLetter c = false) (isClosing : Bool)
    (t : Text) : namedTag? isClosing (c :: t) = none := by
  simp [namedTag?, hc]

/-- The tags of an element as they are read, if its name begins with a letter. -/
theorem tag?_opening {c : Char} {cs : Text} (hc : isAsciiLetter c = true)
    (hcs : ∀ x ∈ cs, isTagNameChar x = true) (hinside : '>' ∉ inside)
    (hhead : ∀ x ∈ inside.head?, isTagNameChar x = false) (rest : Text) :
    tag? (('<' :: (c :: cs ++ (inside ++ ['>']))) ++ rest) =
      some (⟨false, lower (c :: cs), inside.getLast? == some '/'⟩, rest) := by
  have hslash : c ≠ '/' := by
    rintro rfl
    exact absurd hc (by decide)
  have h := namedTag?_append hc hcs hinside hhead false rest
  simp only [List.cons_append, List.append_assoc, List.nil_append] at h ⊢
  unfold tag?
  split <;> simp_all

/-- A closing tag is read with its name in lower case. -/
theorem tag?_closing {c : Char} {cs : Text} (hc : isAsciiLetter c = true)
    (hcs : ∀ x ∈ cs, isTagNameChar x = true) (rest : Text) :
    tag? (('<' :: '/' :: (c :: cs ++ ['>'])) ++ rest) =
      some (⟨true, lower (c :: cs), false⟩, rest) := by
  have h := namedTag?_append hc hcs (List.not_mem_nil (a := '>')) (by simp) true rest
  simpa [tag?] using h

/-- A closing tag takes back what its opening tag adds to the depth; void names add nothing. -/
private theorem depthAfter_depthAfter (name : Text) (depth : ℕ) :
    depthAfter ⟨true, name, false⟩ (depthAfter ⟨false, name, false⟩ depth) = depth := by
  cases hvoid : Markup.isVoid (String.ofList name) <;> simp [depthAfter, hvoid]

/-- An element whose name begins with a letter: both its tags are read as tags. -/
private theorem passes_named {c : Char} {cs : Text} (hc : isAsciiLetter c = true)
    (hcs : ∀ x ∈ cs, isTagNameChar x = true) (helse : lower (c :: cs) ≠ elseName)
    (hinside : '>' ∉ inside) (hhead : ∀ x ∈ inside.head?, isTagNameChar x = false)
    (hlast : inside.getLast? ≠ some '/') (hinner : Passes inner) :
    Passes (('<' :: (c :: cs ++ (inside ++ ['>']))) ++
      (inner ++ '<' :: '/' :: (c :: cs ++ ['>']))) := by
  intro depth rest
  have hopen := tag?_opening hc hcs hinside hhead
    (inner ++ ('<' :: '/' :: (c :: cs ++ ['>']) ++ rest))
  have hself : (inside.getLast? == some '/') = false := by simpa using hlast
  rw [hself] at hopen
  rw [List.append_assoc, List.append_assoc, findAlternative_tag (by simp) hopen (.inl helse), hinner,
    findAlternative_tag (by simp) (tag?_closing hc hcs rest) (.inl helse), depthAfter_depthAfter,
    Option.map_map, Option.map_map]
  congr 1
  funext a
  simp

/-- An opening tag whose name does not begin with a letter is text for the search. -/
private theorem passes_opening_of_nameless (hname : ∀ x ∈ name, isNameLetter x = true)
    (hfirst : ∀ x ∈ name.head?, isAsciiLetter x = false) (hinside : '<' ∉ inside)
    (hhead : inside = [] ∨ inside.head? = some ' ') :
    Passes ('<' :: (name ++ (inside ++ ['>']))) := by
  refine passes_nameless (by simp [angle_not_mem hname, hinside]) fun rest => ?_
  cases name with
  | nil =>
    rcases hhead with rfl | h
    · simp [tag?, namedTag?, show isAsciiLetter '>' = false from by decide]
    · obtain ⟨u, rfl⟩ : ∃ u, inside = ' ' :: u := by
        cases inside with
        | nil => simp at h
        | cons x xs => exact ⟨xs, by simpa using h⟩
      simp [tag?, namedTag?, show isAsciiLetter ' ' = false from by decide]
  | cons c cs =>
    have hslash : c ≠ '/' := by
      rintro rfl
      exact absurd (hname '/' (by simp)) (by decide)
    have hc := hfirst c (by simp)
    have h := namedTag?_eq_none hc false (cs ++ (inside ++ ['>']) ++ rest)
    rw [List.cons_append, List.cons_append]
    unfold tag?
    split <;> simp_all

private theorem passes_closing_of_nameless (hname : ∀ x ∈ name, isNameLetter x = true)
    (hfirst : ∀ x ∈ name.head?, isAsciiLetter x = false) :
    Passes ('<' :: '/' :: (name ++ ['>'])) := by
  refine passes_nameless (by simp [angle_not_mem hname]) fun rest => ?_
  cases name with
  | nil => simp [tag?, namedTag?, show isAsciiLetter '>' = false from by decide]
  | cons c cs => simp [tag?, namedTag?, hfirst c (by simp)]

/-- **Elements pass.** What is inside passes one deeper, or as deep as the element if the name is that
of a void element. -/
theorem passes_pair (hname : ∀ x ∈ name, isNameLetter x = true) (helse : lower name ≠ elseName)
    (hinside : '>' ∉ inside ∧ '<' ∉ inside) (hhead : inside = [] ∨ inside.head? = some ' ')
    (hlast : inside.getLast? ≠ some '/') (hinner : Passes inner) :
    Passes (('<' :: (name ++ (inside ++ ['>']))) ++ (inner ++ '<' :: '/' :: (name ++ ['>']))) := by
  by_cases hfirst : ∀ x ∈ name.head?, isAsciiLetter x = false
  · -- neither tag is one for the search, so it goes over both as over text
    exact (passes_opening_of_nameless hname hfirst hinside.2 hhead).append
      (hinner.append (passes_closing_of_nameless hname hfirst))
  · cases name with
    | nil => exact absurd (by simp) hfirst
    | cons c cs =>
      have hc : isAsciiLetter c = true := by simpa using hfirst
      have hstop : ∀ x ∈ inside.head?, isTagNameChar x = false := by
        intro x hx
        rcases hhead with rfl | h
        · simp at hx
        · obtain rfl : ' ' = x := by simpa [h] using hx
          decide
      exact passes_named hc (fun x hx => isTagNameChar_of_isNameLetter (hname x (by simp [hx]))) helse
        hinside.1 hstop hlast hinner

/-- A tag that closes itself passes. -/
theorem passes_void {c : Char} {cs : Text} (hc : isAsciiLetter c = true)
    (hcs : ∀ x ∈ cs, isNameLetter x = true) (helse : lower (c :: cs) ≠ elseName)
    (hinside : '>' ∉ inside) (hhead : ∀ x ∈ inside.head?, isTagNameChar x = false)
    (hlast : inside.getLast? = some '/') :
    Passes ('<' :: (c :: cs ++ (inside ++ ['>']))) := fun depth rest => by
  have hname : ∀ x ∈ cs, isTagNameChar x = true := fun x hx =>
    isTagNameChar_of_isNameLetter (hcs x hx)
  rw [findAlternative_tag (by simp) (tag?_opening hc hname hinside hhead rest) (.inl helse)]
  simp [depthAfter, hlast]

end Elements

/-! ### The alternative -/

/-- Where everything passes on the level of the body, there is no alternative. -/
theorem alternative?_of_passesAt {t : Text} (h : PassesAt 0 t) : alternative? t = none := by
  have := h []
  simpa [alternative?, findAlternative] using this

/-- A text that the search goes over has no alternative. -/
theorem alternative?_of_passes {t : Text} (h : Passes t) : alternative? t = none :=
  alternative?_of_passesAt (h 0)

private theorem tag?_elseOpening (rest : Text) :
    tag? (elseOpening ++ rest) = some (⟨false, elseName, false⟩, rest) := by
  have hname : elseName = 'h' :: ['b', '-', 'e', 'l', 's', 'e'] := by decide
  have h : tag? (('<' :: ('h' :: ['b', '-', 'e', 'l', 's', 'e'] ++ ([] ++ ['>']))) ++ rest) = _ :=
    tag?_opening (by decide) (by decide) List.not_mem_nil (by simp) rest
  have hlower : lower ('h' :: ['b', '-', 'e', 'l', 's', 'e']) = elseName := by decide
  rw [hlower] at h
  simpa [elseOpening_eq] using h

/-- The alternative region behind what passes is cut at the first closing tag. -/
theorem alternative?_append_of_cut? {before inside after : Text} (hbefore : PassesAt 0 before)
    (hcut : cut? elseClosing (inside ++ (elseClosing ++ after)) = some (inside, after)) :
    alternative? (before ++ (elseOpening ++ (inside ++ (elseClosing ++ after)))) =
      some ⟨before, inside, after⟩ := by
  have hregion : elseRegion? (elseOpening ++ (inside ++ (elseClosing ++ after))) =
      some ⟨[], inside, after⟩ := by
    simp [elseRegion?, after?_append, hcut]
  have htag := tag?_elseOpening (inside ++ (elseClosing ++ after))
  rw [alternative?, hbefore]
  simp only [elseOpening_eq, List.cons_append, List.nil_append] at htag hregion ⊢
  rw [findAlternative, htag]
  simp [hregion, Alternative.prepend]

/-- **What was put there.** The alternative region behind what passes is found whole. -/
theorem alternative?_append {before inside after : Text} (hbefore : Passes before)
    (hinside : Clear elseOpening elseClosing inside) :
    alternative? (before ++ (elseOpening ++ (inside ++ (elseClosing ++ after)))) =
      some ⟨before, inside, after⟩ :=
  alternative?_append_of_cut? (hbefore 0)
    (cut?_append ((hinside (elseClosing ++ after)).imp fun _ hs => hs.2))

end Stencil.Template
