import Stencil.Markup.Escape
import Stencil.Proofs.Text.Scanning
import Stencil.Template.Lowering

/-!
# Escaped text is read back

Decoding the references of an escaped text gives the text again (`decodeReferences_escape`), and no
reference in it is by a decimal number (`findAll_decimalReference?_escape`), so that reading an
escaped attribute value never fails. Both are shown character by character: what stands for one
character is one reference, or the character itself, which is then no ampersand.
-/

namespace Stencil.Markup

open Text Template

theorem escapeChar_ne_nil (c : Char) : escapeChar c ≠ [] := by
  unfold escapeChar
  split_ifs <;> simp

theorem escape_eq_nil_iff {t : Text} : escape t = [] ↔ t = [] := by
  cases t with
  | nil => simp
  | cons c cs => simp [escapeChar_ne_nil]

theorem escape_of_forall {t : Text}
    (h : ∀ c ∈ t, c ≠ '&' ∧ c ≠ '<' ∧ c ≠ '>' ∧ c ≠ '"' ∧ c ≠ '\'') : escape t = t := by
  induction t with
  | nil => rfl
  | cons c cs ih =>
    obtain ⟨h1, h2, h3, h4, h5⟩ := h c (by simp)
    rw [escape_cons, ih fun d hd => h d (by simp [hd])]
    simp [escapeChar, h1, h2, h3, h4, h5]

/-- A text without any character that is escaped is written as it is. -/
theorem escape_of_not_mem {t : Text} (h : ∀ x ∈ ['&', '<', '>', '"', '\''], x ∉ t) : escape t = t := by
  refine escape_of_forall fun c hc => ?_
  have hne : ∀ x ∈ ['&', '<', '>', '"', '\''], c ≠ x := fun x hx heq => h x hx (heq ▸ hc)
  exact ⟨hne _ (by simp), hne _ (by simp), hne _ (by simp), hne _ (by simp), hne _ (by simp)⟩

/-- The text of a reference that escaping writes is followed by what escaping writes next. -/
private theorem pieces_reference_append (c : Char) (v : Text) :
    (pieces reference (escapeChar c ++ v)).flatMap (Piece.text id) =
      c :: (pieces reference v).flatMap (Piece.text id) := by
  have hit : ∀ {x : Text}, x ≠ [] → reference (x ++ v) = some ([c], v) →
      (pieces reference (x ++ v)).flatMap (Piece.text id) =
        c :: (pieces reference v).flatMap (Piece.text id) := by
    intro x hx h
    rw [pieces_append_of_some hx h]
    simp [Piece.text]
  -- five characters are written as references, and no other begins one
  unfold escapeChar
  split_ifs with h1 h2 h3 h4 h5
  · subst h1
    exact hit (by simp) rfl
  · subst h2
    exact hit (by simp) rfl
  · subst h3
    exact hit (by simp) rfl
  · subst h4
    exact hit (by simp) rfl
  · subst h5
    exact hit (by simp) rfl
  · have hnone : reference ([c] ++ v) = none := by
      unfold reference
      split <;> simp_all
    rw [pieces_append_of_none (by simpa using hnone)]
    simp [Piece.text]

/-- Decoding takes escaped text for what was escaped, whatever comes behind it. -/
theorem decodeReferences_escape_append (t v : Text) :
    decodeReferences (escape t ++ v) = t ++ decodeReferences v := by
  unfold decodeReferences replaceEach
  induction t with
  | nil => rfl
  | cons c cs ih =>
    rw [escape_cons, List.append_assoc, pieces_reference_append, ih, List.cons_append]

/-- **Read back.** Decoding undoes escaping. -/
theorem decodeReferences_escape (t : Text) : decodeReferences (escape t) = t := by
  have h := decodeReferences_escape_append t []
  have hnil : decodeReferences [] = [] := decodeReferences_of_not_mem List.not_mem_nil
  rwa [hnil, List.append_nil, List.append_nil] at h

private theorem everyTail_decimalReference?_escapeChar (c : Char) (v : Text) :
    EveryTail (fun s => decimalReference? (s ++ v) = none) (escapeChar c) := by
  unfold escapeChar
  split_ifs with h1
  all_goals simp [decimalReference?, isAsciiDigit]
  all_goals split <;> simp_all

/-- Escaped text has no reference by a decimal number. -/
theorem findAll_decimalReference?_escape (t : Text) :
    findAll decimalReference? (escape t) = [] := by
  unfold findAll
  induction t with
  | nil => rfl
  | cons c cs ih =>
    rw [escape_cons, pieces_append_of_none (everyTail_decimalReference?_escapeChar c _),
      List.filterMap_append, filterMap_found?_char, ih, List.nil_append]

@[simp] theorem checkReferences_escape (t : Text) : checkReferences (escape t) = .ok () := by
  rw [checkReferences, findAll_decimalReference?_escape]
  rfl

end Stencil.Markup
