import Stencil.Proofs.Text.Fields
import Stencil.Template.Lowering

/-!
# The blocks of a usable condition

A condition that can be put into a template has no foreign character in it, such as an angle bracket
(`IsForeign.not_mem_of_validateText`), and neither have the tags of its blocks. Texts in nested blocks are
related as the texts are, by any relation that joining keeps and that relates every tag to itself.
-/

namespace Stencil

open Text

namespace Condition

/-- A character that cannot stand in a condition: neither white space, nor a sign, nor one of a term. -/
def IsForeign (c : Char) : Prop := isBlank c = false ∧ c ∉ ['!', '&', '|'] ∧ isTermChar c = false

instance : DecidablePred IsForeign := fun c =>
  inferInstanceAs (Decidable (isBlank c = false ∧ c ∉ ['!', '&', '|'] ∧ isTermChar c = false))

/-- A term has no character that may not stand in one. -/
theorem not_mem_of_isTerm {c : Char} (hc : isTermChar c = false) {t : Text} (h : isTerm t = true) :
    c ∉ t := fun hmem => by
  simp only [isTerm, Bool.and_eq_true, List.all_eq_true] at h
  exact absurd (h.2 _ hmem) (by simp [hc])

theorem ne_nil_of_isTerm {t : Text} (h : isTerm t = true) : t ≠ [] := by
  rintro rfl
  exact absurd h (by decide)

/-- There is no white space in a term. -/
theorem isBlank_of_isTerm {t : Text} (h : isTerm t = true) : ∀ c ∈ t, isBlank c = false := by
  intro c hc
  by_contra hblank
  rw [Bool.not_eq_false] at hblank
  have hchar : isTermChar c = false := by simp [isTermChar, hblank]
  exact not_mem_of_isTerm hchar h hc

/-- A character that is neither white space nor a sign is in a term if it is in a condition. -/
private theorem exists_mem_terms {c : Char} (hc : IsForeign c) {t : Text} (h : c ∈ t) :
    ∃ u ∈ terms t, c ∈ u := by
  obtain ⟨hblank, hsign, -⟩ := hc
  simp only [List.mem_cons, List.not_mem_nil, or_false, not_or] at hsign
  rcases mem_splitAt (show orSign ≠ [] by decide) h with h | ⟨alternative, ha, h⟩
  · exact absurd h (by simp [orSign, hsign])
  rcases mem_splitAt (show andSign ≠ [] by decide) h with h | ⟨conjunct, hconjunct, h⟩
  · exact absurd h (by simp [andSign, hsign])
  refine ⟨term conjunct, List.mem_flatMap.mpr ⟨alternative, ha, List.mem_map_of_mem hconjunct⟩, ?_⟩
  exact mem_trim (mem_dropWhile (mem_trim h hblank) (by simpa using hsign.1)) hblank

/-- A condition that can be put into a template is its trimmed text, and all its terms are usable. -/
theorem eq_trim_of_validateText {t condition : Text} (h : validateText t = .ok condition) :
    condition = trim t ∧ condition ≠ [] ∧ ∀ u ∈ terms condition, isTerm u = true := by
  unfold validateText at h
  dsimp only at h
  split at h
  · cases h
  · next hne =>
    split at h
    · next hbad =>
      obtain rfl : trim t = condition := by simpa using h
      refine ⟨rfl, by simpa using hne, fun u hu => ?_⟩
      simpa using List.filter_eq_nil_iff.mp hbad u hu
    · cases h

/-- Nothing with a foreign character can be put into a template as a condition. -/
theorem IsForeign.not_mem_of_validateText {c : Char} (hc : IsForeign c) {t condition : Text}
    (h : validateText t = .ok condition) : c ∉ t := fun hmem => by
  obtain ⟨rfl, -, hterms⟩ := eq_trim_of_validateText h
  obtain ⟨u, hu, hmem⟩ := exists_mem_terms hc (mem_trim hmem hc.1)
  exact not_mem_of_isTerm hc.2.2 (hterms u hu) hmem

/-- A condition has a conjunct. -/
theorem splitConjuncts_ne_nil (t : Text) : splitConjuncts t ≠ [] := by
  simp [splitConjuncts, conjuncts, splitAt, fieldsOf_ne_nil]

/-- The conjuncts of a usable condition have no foreign character. -/
theorem IsForeign.not_mem_of_mem_splitConjuncts {c : Char} (hc : IsForeign c)
    {t condition conjunct : Text} (h : validateText t = .ok condition)
    (hconjunct : conjunct ∈ splitConjuncts condition) : c ∉ conjunct := by
  obtain ⟨own, hown, rfl⟩ := List.mem_map.mp hconjunct
  obtain ⟨rfl, -, -⟩ := eq_trim_of_validateText h
  exact fun hmem => hc.not_mem_of_validateText h
    (mem_of_mem_trim (mem_of_mem_splitAt (by decide) hown (mem_of_mem_trim hmem)))

end Condition

namespace Template

/-- The tags of a block without angle brackets. -/
def Block.Plain (b : Block) : Prop := '<' ∉ b.opening ∧ '<' ∉ b.closing

theorem Block.plain_of {kind path : Text} (hkind : '<' ∉ kind) (hpath : '<' ∉ path) :
    (Block.of kind path).Plain := by
  constructor <;> simp [Block.of, braced, hkind, hpath]

theorem Block.plain_ofConjunct {conjunct : Text} (h : '<' ∉ conjunct) :
    (Block.ofConjunct conjunct).Plain := by
  have hpath : '<' ∉ trim (conjunct.dropWhile (· == '!')) := fun hmem =>
    h ((List.dropWhile_suffix _).subset (mem_of_mem_trim hmem))
  rw [Block.ofConjunct]
  split
  · exact plain_of (by decide) h
  · refine plain_of ?_ hpath
    split <;> decide

/-- The blocks of a usable condition have no angle brackets in their tags. -/
theorem plain_of_mem_blocks {t condition : Text}
    (h : Condition.validateText t = .ok condition) {b : Block} (hb : b ∈ blocks condition) :
    b.Plain := by
  obtain ⟨conjunct, hconjunct, rfl⟩ := List.mem_map.mp hb
  have hangle : Condition.IsForeign '<' := by decide
  exact Block.plain_ofConjunct (hangle.not_mem_of_mem_splitConjuncts h hconjunct)

section Enclose

variable {R : Text → Text → Prop}
  (append : ∀ {t t' u u'}, R t t' → R u u' → R (t ++ u) (t' ++ u')) {bs : List Block}

include append

theorem enclose_related (hbs : ∀ b ∈ bs, R b.opening b.opening ∧ R b.closing b.closing)
    {body body' : Text} (hbody : R body body') : R (enclose body bs) (enclose body' bs) := by
  induction bs with
  | nil => exact hbody
  | cons b bs ih =>
    obtain ⟨hopening, hclosing⟩ := hbs b (by simp)
    exact append (append hopening (ih fun b hb => hbs b (by simp [hb]))) hclosing

theorem encloseWith_related (hbs : ∀ b ∈ bs, R b.opening b.opening ∧ R b.closing b.closing)
    (helse : R elseTag elseTag) {alternative alternative' body body' : Text}
    (halternative : R alternative alternative') (hbody : R body body') :
    R (encloseWith alternative body bs) (encloseWith alternative' body' bs) := by
  induction bs with
  | nil => exact hbody
  | cons b bs ih =>
    obtain ⟨hopening, hclosing⟩ := hbs b (by simp)
    exact append (append (append (append hopening (ih fun b hb => hbs b (by simp [hb]))) helse)
      halternative) hclosing

end Enclose

end Template

end Stencil
