import Stencil.Value.Display

/-!
# Escaping

Text and attribute values are written with the five characters that have a meaning in markup replaced
by references. Raw markup is written as it is when it is text, but not inside an attribute.
-/

namespace Stencil.Markup

/-- A character as it is written in markup. -/
def escapeChar (c : Char) : Text :=
  if c = '&' then "&amp;".toList
  else if c = '<' then "&lt;".toList
  else if c = '>' then "&gt;".toList
  else if c = '"' then "&quot;".toList
  else if c = '\'' then "&#x27;".toList
  else [c]

/-- A text as it is written in markup. -/
def escape (t : Text) : Text := t.flatMap escapeChar

/-- A value as text between tags. -/
def escapeText (v : Value) : Text :=
  match v with
  | .raw s => s.toList
  | _ => escape v.display

/-- A value as the value of an attribute. -/
def escapeAttribute (v : Value) : Text := escape v.display

@[simp] theorem escape_nil : escape [] = [] := rfl

@[simp] theorem escape_cons (c : Char) (t : Text) : escape (c :: t) = escapeChar c ++ escape t := rfl

/-- No character is written with an angle bracket or a double quote. -/
theorem mem_escapeChar {c x : Char} (h : x ∈ escapeChar c) : x ≠ '<' ∧ x ≠ '>' ∧ x ≠ '"' := by
  unfold escapeChar at h
  split at h
  · simp at h; rcases h with rfl | rfl | rfl | rfl | rfl <;> decide
  split at h
  · simp at h; rcases h with rfl | rfl | rfl | rfl <;> decide
  split at h
  · simp at h; rcases h with rfl | rfl | rfl | rfl <;> decide
  split at h
  · simp at h; rcases h with rfl | rfl | rfl | rfl | rfl | rfl <;> decide
  split at h
  · simp at h; rcases h with rfl | rfl | rfl | rfl | rfl | rfl <;> decide
  · simp_all

/-- Escaped text holds no angle bracket and no double quote. -/
theorem mem_escape {t : Text} {x : Char} (h : x ∈ escape t) : x ≠ '<' ∧ x ≠ '>' ∧ x ≠ '"' := by
  obtain ⟨c, _, hx⟩ := List.mem_flatMap.1 h
  exact mem_escapeChar hx

end Stencil.Markup
