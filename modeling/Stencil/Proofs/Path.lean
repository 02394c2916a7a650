import Stencil.Path
import Stencil.Proofs.Text.Runs

/-!
# Spellings of a path

Texts with the same parts between their separators spell the same path, so a path has many spellings. Of
what a spelling is made follows from the path: every character outside the parts is a separator
(`exists_field_of_infix`).

Spellings that are not the same are told apart by the item behind them: **a spelling followed by `.[0]` does
not begin another one that is followed by it**, if both have as many parts (`eq_of_item_prefix`).
-/

namespace Stencil.Path

open Text

theorem fields_append_cons {c : Char} (hc : isSeparator c = true) (u v : Text) :
    fields (u ++ c :: v) = fields u ++ fields v := by
  rw [fields, splitBy_append hc, List.filter_append]
  rfl

/-- A separator in front of a path separates nothing. -/
theorem fields_cons {c : Char} (hc : isSeparator c = true) (t : Text) : fields (c :: t) = fields t :=
  fields_append_cons hc [] t

theorem fields_of_forall {u : Text} (h : ∀ c ∈ u, isSeparator c = false) (hne : u ≠ []) :
    fields u = [u] := by
  rw [fields, splitBy_of_forall h]
  simp [hne]

/-- The first part begins with the text, unless that begins with a separator. -/
theorem exists_fields_cons {c : Char} (hc : isSeparator c = false) (t : Text) :
    ∃ w rest, fields (c :: t) = (c :: w) :: rest := by
  obtain ⟨s, hs⟩ : ∃ s, s = c :: t := ⟨_, rfl⟩
  induction s using runs_induction (fun d => !isSeparator d) with
  | last u hu =>
    subst hs
    exact ⟨t, [], fields_of_forall (fun d hd => by simpa using hu d hd) (List.cons_ne_nil c t)⟩
  | step u d v hu hd =>
    cases u with
    | nil =>
      obtain ⟨rfl, -⟩ := List.cons.inj hs
      rw [hc] at hd
      cases hd
    | cons e u =>
      obtain ⟨rfl, rfl⟩ := List.cons.inj hs
      refine ⟨u, fields v, ?_⟩
      have hpart : fields (e :: u) = [e :: u] :=
        fields_of_forall (fun d hd => by simpa using hu d hd) (List.cons_ne_nil e u)
      have hall := fields_append_cons (by simpa using hd) (e :: u) v
      rwa [hpart, List.singleton_append] at hall

/-- A word without separators that comes in a path comes in a part of it. -/
theorem exists_field_of_infix {word t : Text} (hne : word ≠ []) (hword : ∀ c ∈ word, isSeparator c = false)
    (h : word <:+: t) : ∃ f ∈ fields t, word <:+: f := by
  have hrun : ∀ u, (∀ c ∈ u, (!isSeparator c) = true) → word <:+: u → ∃ f ∈ fields u, word <:+: f := by
    intro u hu hword'
    have hu' : u ≠ [] := by
      rintro rfl
      exact hne (List.infix_nil.mp hword')
    exact ⟨u, by simp [fields_of_forall (fun c hc => by simpa using hu c hc) hu'], hword'⟩
  induction t using runs_induction (fun c => !isSeparator c) with
  | last u hu => exact hrun u hu h
  | step u c v hu hc ih =>
    have hc : isSeparator c = true := by simpa using hc
    have habsent : c ∉ word := fun hmem => by
      rw [hword c hmem] at hc
      cases hc
    rw [fields_append_cons hc]
    rcases infix_of_infix_append_cons h habsent with hleft | hright
    · obtain ⟨f, hf, hword'⟩ := hrun u hu hleft
      exact ⟨f, List.mem_append_left _ hf, hword'⟩
    · obtain ⟨f, hf, hword'⟩ := ih hright
      exact ⟨f, List.mem_append_right _ hf, hword'⟩

/-- A character of a path is a separator, or one of a part. -/
theorem mem_fields {t : Text} {c : Char} (h : c ∈ t) :
    isSeparator c = true ∨ ∃ f ∈ fields t, c ∈ f := by
  by_cases hc : isSeparator c = true
  · exact .inl hc
  · obtain ⟨u, v, rfl⟩ := List.append_of_mem h
    have hsingle : [c] <:+: u ++ c :: v := ⟨u, v, by simp⟩
    obtain ⟨f, hf, hcome⟩ := exists_field_of_infix (List.cons_ne_nil c [])
      (List.forall_mem_singleton.mpr (by simpa using hc)) hsingle
    exact .inr ⟨f, hf, hcome.subset List.mem_cons_self⟩

/-- **Different spellings.** A path followed by its first item does not begin another one that is followed by
its first item, if both have as many parts. -/
theorem eq_of_item_prefix {u v : Text} (hlength : (fields u).length = (fields v).length)
    (h : u ++ ".[0]".toList <+: v ++ ".[0]".toList) : u = v := by
  have hlit : ".[0]".toList = ['.', '[', '0', ']'] := by decide
  obtain ⟨x, hx⟩ := h
  rw [hlit] at hx
  -- the parts of `v` and its first item take up those of `u` and its first item, so `x` has none
  have hfields : ∀ w y : Text, fields (w ++ ['.', '[', '0', ']'] ++ y) = fields w ++ ([['0']] ++ fields y) := by
    intro w y
    have hsplit : w ++ ['.', '[', '0', ']'] ++ y = w ++ '.' :: ([] ++ '[' :: (['0'] ++ ']' :: y)) := by simp
    rw [hsplit, fields_append_cons (by decide), fields_append_cons (by decide),
      fields_append_cons (by decide)]
    rfl
  have hnone : fields x = [] := by
    have hsame := congrArg (fun t => (fields t).length) (hx.trans (List.append_nil _).symm)
    simp only [hfields, List.length_append, hlength] at hsame
    rw [← List.length_eq_zero_iff]
    have hnil : (fields []).length = 0 := rfl
    omega
  have hseparators : ∀ c ∈ x, isSeparator c = true := by
    intro c hc
    rcases mem_fields hc with hc | ⟨f, hf, -⟩
    · exact hc
    · rw [hnone] at hf
      cases hf
  -- only the bracket at the end is a separator behind the digit
  cases x using List.reverseRecOn with
  | nil => simpa using hx
  | append_singleton ys d =>
    have hlast : u ++ ['.', '[', '0', ']'] ++ ys = v ++ ['.', '[', '0'] := by
      have hall : (u ++ ['.', '[', '0', ']'] ++ ys) ++ [d] = (v ++ ['.', '[', '0']) ++ [']'] := by
        simpa using hx
      exact (List.append_inj' hall rfl).1
    cases ys using List.reverseRecOn with
    | nil =>
      have hend := congrArg List.getLast? hlast
      simp at hend
    | append_singleton zs e =>
      have hend := congrArg List.getLast? hlast
      simp only [← List.append_assoc, List.getLast?_append, List.getLast?_singleton] at hend
      obtain rfl : e = '0' := by simpa using hend
      exact absurd (hseparators '0' (by simp)) (by decide)

end Stencil.Path
