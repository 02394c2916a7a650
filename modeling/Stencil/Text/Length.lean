import Stencil.Text.Blank

/-!
# The length of fields

What splits a text and goes on with the fields comes to an end, since **the fields of a text with a
separator in it are shorter than the text** (`length_lt_of_mem_splitAt`), and trimming makes no text
longer (`length_trim_le`).
-/

namespace Stencil.Text

/-! ### Fields -/

/-- A field has no more characters than there are pieces that are no occurrences. -/
theorem length_add_le_of_mem_fieldsOf {α : Type} {ps : List (Piece α)} {field : Text}
    (h : field ∈ fieldsOf ps) :
    field.length + (ps.filterMap Piece.found?).length ≤ ps.length := by
  induction ps generalizing field with
  | nil =>
    obtain rfl : field = [] := by simpa [fieldsOf] using h
    exact Nat.le_refl 0
  | cons p ps ih =>
    cases p with
    | hit found =>
      have hpieces := List.length_filterMap_le Piece.found? ps
      rcases List.mem_cons.1 h with rfl | h
      · simpa [Piece.found?] using hpieces
      · have hrest := ih h
        simp only [List.length_cons, List.filterMap_cons, Piece.found?]
        omega
    | char c =>
      rw [fieldsOf] at h
      split at h
      · next hnone => exact absurd hnone (fieldsOf_ne_nil ps)
      · next first rest hfields =>
        rw [hfields] at ih
        rcases List.mem_cons.1 h with rfl | h
        · have hfirst := ih List.mem_cons_self
          simp only [List.length_cons, List.filterMap_cons, Piece.found?]
          omega
        · have hrest := ih (List.mem_cons_of_mem first h)
          simp only [List.length_cons, List.filterMap_cons, Piece.found?]
          omega

/-- There are no more pieces than characters. -/
theorem length_piecesFrom_literal_le {word : Text} (hword : word ≠ []) (skip : Nat) (t : Text) :
    (piecesFrom (literal word) skip t).length ≤ t.length := by
  obtain ⟨w, ws, rfl⟩ := List.exists_cons_of_ne_nil hword
  induction t generalizing skip with
  | nil => cases skip <;> simp [piecesFrom, literal, after?]
  | cons c cs ih =>
    cases skip with
    | succ skip => exact Nat.le_succ_of_le (ih skip)
    | zero =>
      cases hfound : after? (w :: ws) (c :: cs) with
      | none =>
        have hnone : literal (w :: ws) (c :: cs) = none := by rw [literal, hfound]; rfl
        rw [piecesFrom, hnone]
        exact Nat.succ_le_succ (ih 0)
      | some rest =>
        have hsome : literal (w :: ws) (c :: cs) = some ((), rest) := by rw [literal, hfound]; rfl
        have hlength := congrArg List.length (eq_append_of_after? hfound)
        simp only [List.length_append, List.length_cons] at hlength
        obtain ⟨skip, hskip⟩ : ∃ skip, (c :: cs).length - rest.length = skip + 1 :=
          ⟨ws.length, by rw [List.length_cons]; omega⟩
        rw [piecesFrom, hsome]
        dsimp only
        rw [hskip]
        exact Nat.succ_le_succ (ih skip)

/-- A word that comes in a text is found there. -/
theorem findAll_literal_ne_nil {word t : Text} (hword : word ≠ []) (h : has word t = true) :
    findAll (literal word) t ≠ [] := by
  rw [findAll, pieces]
  induction t with
  | nil => simp [has, cut?, hword] at h
  | cons c cs ih =>
    cases hfound : after? word (c :: cs) with
    | none =>
      have hnone : literal word (c :: cs) = none := by rw [literal, hfound]; rfl
      have hcut : has word cs = true := by simpa [has, cut?, hfound] using h
      rw [piecesFrom, hnone]
      exact ih hcut
    | some rest =>
      have hsome : literal word (c :: cs) = some ((), rest) := by rw [literal, hfound]; rfl
      rw [piecesFrom, hsome]
      dsimp only
      split <;> simp [Piece.found?]

/-- The fields of a text are shorter than the text where it has a separator. -/
theorem length_lt_of_mem_splitAt {word t field : Text} (hword : word ≠ []) (h : has word t = true)
    (hfield : field ∈ splitAt word t) : field.length < t.length := by
  have hfound := List.length_pos_iff.2 (findAll_literal_ne_nil hword h)
  have hpieces := length_piecesFrom_literal_le hword 0 t
  have hle := length_add_le_of_mem_fieldsOf hfield
  rw [findAll] at hfound
  rw [pieces] at hle hfound
  omega

/-! ### Trimming -/

theorem length_trim_le (t : Text) : (trim t).length ≤ t.length := by
  have hleft : (trimLeft t).length ≤ t.length := (List.dropWhile_suffix isBlank).length_le
  have hright := (List.dropWhile_suffix isBlank (l := (trimLeft t).reverse)).length_le
  rw [List.length_reverse] at hright
  rw [trim, trimRight, List.length_reverse]
  exact Nat.le_trans hright hleft

end Stencil.Text
