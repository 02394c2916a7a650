import Stencil.Text.Blank
import Stencil.Text.Word

/-!
# Pseudo-tags

Markup on its way to a template marks conditionals and loops by pseudo-tags:

* `<hb-if condition="…">…<hb-else>…</hb-else>…</hb-if>`
* `<hb-each array="…" itemVar="…">…</hb-each>`

Here they are recognised. A conditional or loop is recognised only when it is innermost: its body runs
to the next closing tag and holds no opening tag of its own kind. An opening tag may have further
attributes, and it ends at the first `>` behind the attributes that are read; when no closing tag can
be found that way, the opening tag is taken to end at its very first `>`, and the optional attribute
counts as missing.
-/

namespace Stencil.Template

/-- The start of an opening conditional tag. -/
def ifOpening : Text := "<hb-if".toList

/-- The closing conditional tag. -/
def ifClosing : Text := "</hb-if>".toList

/-- The opening tag of an alternative region. -/
def elseOpening : Text := "<hb-else>".toList

/-- The closing tag of an alternative region. -/
def elseClosing : Text := "</hb-else>".toList

/-- The start of an opening loop tag. -/
def eachOpening : Text := "<hb-each".toList

/-- The closing loop tag. -/
def eachClosing : Text := "</hb-each>".toList

/-! ### Parts of a tag -/

/-- The text behind the `>` that ends a tag. -/
def tagEnd? : Text → Option Text
  | [] => none
  | c :: cs => if c = '>' then some cs else tagEnd? cs

/-- The text up to a double quote, and the text behind it. -/
def quotedValue? : Text → Option (Text × Text)
  | [] => none
  | c :: cs =>
    if c = '"' then some ([], cs)
    else (quotedValue? cs).map fun (value, rest) => (c :: value, rest)

/-- An attribute with white space before it: its value, and the text behind it. -/
def attribute? (name t : Text) : Option (Text × Text) := do
  let t ← Text.blanks? t
  let t ← Text.after? (name ++ ['=', '"']) t
  quotedValue? t

/-- An attribute whose value is not empty. -/
def filledAttribute? (name t : Text) : Option (Text × Text) := do
  let (value, rest) ← attribute? name t
  if value.isEmpty then none else some (value, rest)

/-- The text up to a closing tag, if no opening tag comes before it, and the text behind it. -/
def bodyUntil? (opening closing : Text) : Text → Option (Text × Text)
  | [] => none
  | c :: cs =>
    match Text.after? closing (c :: cs) with
    | some rest => some ([], rest)
    | none =>
      if Text.startsWith opening (c :: cs) then none
      else (bodyUntil? opening closing cs).map fun (body, rest) => (c :: body, rest)

/-- The rest of a tag and a body behind it. -/
def restAndBody? (opening closing t : Text) : Option (Text × Text) := do
  bodyUntil? opening closing (← tagEnd? t)

/-! ### Conditionals and loops -/

/-- An innermost conditional as it is written. -/
structure Conditional where
  /-- The condition attribute. -/
  condition : Option Text
  /-- What stands between the tags. -/
  body : Text
  deriving DecidableEq, Repr

/-- An innermost loop as it is written. -/
structure Loop where
  /-- The array attribute. -/
  array : Text
  /-- The item variable attribute. -/
  itemVar : Option Text
  /-- What stands between the tags. -/
  body : Text
  deriving DecidableEq, Repr

/-- A conditional with its condition read. -/
def conditionalWith? (t : Text) : Option (Conditional × Text) := do
  let (condition, t) ← attribute? "condition".toList t
  let (body, rest) ← restAndBody? ifOpening ifClosing t
  some (⟨some condition, body⟩, rest)

/-- A conditional without a condition. -/
def conditionalWithout? (t : Text) : Option (Conditional × Text) := do
  let (body, rest) ← restAndBody? ifOpening ifClosing t
  some (⟨none, body⟩, rest)

/-- The innermost conditional at the front of a text. -/
def conditional? : Text.Matcher Conditional := fun t => do
  let t ← Text.after? ifOpening t
  (conditionalWith? t).or (conditionalWithout? t)

/-- A loop with its item variable read. -/
def loopWith? (array t : Text) : Option (Loop × Text) := do
  let (itemVar, t) ← filledAttribute? "itemVar".toList t
  let (body, rest) ← restAndBody? eachOpening eachClosing t
  some (⟨array, some itemVar, body⟩, rest)

/-- A loop without an item variable. -/
def loopWithout? (array t : Text) : Option (Loop × Text) := do
  let (body, rest) ← restAndBody? eachOpening eachClosing t
  some (⟨array, none, body⟩, rest)

/-- The innermost loop at the front of a text. -/
def loop? : Text.Matcher Loop := fun t => do
  let t ← Text.after? eachOpening t
  let (array, t) ← filledAttribute? "array".toList t
  (loopWith? array t).or (loopWithout? array t)

/-! ### What is left -/

/-- Whether a word ends before a text. -/
def endsWord : Text → Bool
  | [] => true
  | c :: _ => !Text.isWord c

/-- The first of some words that a text starts with, where it ends there too. -/
def wholeWord? (words : List Text) (t : Text) : Option (Text × Text) :=
  words.findSome? fun word =>
    match Text.after? word t with
    | some rest => if endsWord rest then some (word, rest) else none
    | none => none

/-- The names of the pseudo-tags. -/
def pseudoTags : List Text := ["hb-if".toList, "hb-else".toList, "hb-each".toList]

/-- The start of an opening or closing pseudo-tag: its name. -/
def leftover? : Text.Matcher Text
  | '<' :: '/' :: rest => wholeWord? pseudoTags rest
  | '<' :: rest => wholeWord? pseudoTags rest
  | _ => none

/-- One more of a name. -/
def countName (name : String) : List (String × Nat) → List (String × Nat)
  | [] => [(name, 1)]
  | (n, k) :: rest => if n = name then (n, k + 1) :: rest else (n, k) :: countName name rest

/-- How many pseudo-tags of each name are in a text, in the order of their first occurrences. -/
def unbalanced (t : Text) : List (String × Nat) :=
  (Text.findAll leftover? t).foldl (fun counts name => countName (String.ofList name) counts) []

/-- The names of the blocks of a template. -/
def blockNames : List Text := ["if".toList, "unless".toList, "each".toList]

/-- The opening of a block. -/
def blockOpening? : Text.Matcher Text := fun t => do
  wholeWord? blockNames (← Text.after? "\x7b\x7b#".toList t)

/-- The closing of a block. -/
def blockClosing? : Text.Matcher Text := fun t => do
  let t ← Text.after? "\x7b\x7b/".toList t
  blockNames.findSome? fun name =>
    (Text.after? (name ++ "\x7d\x7d".toList) t).map fun rest => (name, rest)

/-- The numbers of block openings and closings in a template. -/
def countBlocks (t : Text) : Nat × Nat :=
  ((Text.findAll blockOpening? t).length, (Text.findAll blockClosing? t).length)

/-! ### Small laws -/

/-- A body is followed by its closing tag. -/
theorem eq_of_bodyUntil? {opening closing t body rest : Text}
    (h : bodyUntil? opening closing t = some (body, rest)) : t = body ++ closing ++ rest := by
  induction t generalizing body with
  | nil => simp [bodyUntil?] at h
  | cons c cs ih =>
    simp only [bodyUntil?] at h
    split at h
    · next r hr =>
      obtain ⟨rfl, rfl⟩ : [] = body ∧ r = rest := by simpa using h
      simpa using Text.eq_append_of_after? hr
    · split at h
      · cases h
      · obtain ⟨⟨b, r⟩, hb, he⟩ := Option.map_eq_some_iff.1 h
        obtain ⟨rfl, rfl⟩ : c :: b = body ∧ r = rest := by simpa using he
        simp [ih hb]

/-- A quoted value ends at the first double quote. -/
theorem quotedValue?_eq_some_iff {t value rest : Text} :
    quotedValue? t = some (value, rest) ↔ t = value ++ '"' :: rest ∧ '"' ∉ value := by
  induction t generalizing value with
  | nil => simp [quotedValue?]
  | cons c cs ih =>
    simp only [quotedValue?]
    split
    · next hc =>
      subst hc
      cases value with
      | nil => simp
      | cons v vs =>
        simp only [Option.some.injEq, Prod.mk.injEq, reduceCtorEq, false_and, List.cons_append,
          List.cons.injEq, List.mem_cons, not_or, false_iff, not_and]
        rintro ⟨rfl, _⟩ h
        exact absurd rfl h
    · next hc =>
      cases value with
      | nil => simp [Ne.symm, hc]
      | cons v vs =>
        simp only [Option.map_eq_some_iff, Prod.mk.injEq, List.cons.injEq, Prod.exists]
        constructor
        · rintro ⟨b, r, hb, ⟨rfl, rfl⟩, rfl⟩
          obtain ⟨rfl, hn⟩ := ih.1 hb
          exact ⟨rfl, by simp [hn, Ne.symm, hc, eq_comm]⟩
        · rintro ⟨he, hn⟩
          simp only [List.cons_append, List.cons.injEq] at he
          obtain ⟨rfl, rfl⟩ := he
          simp only [List.mem_cons, not_or] at hn
          exact ⟨vs, rest, ih.2 ⟨rfl, hn.2⟩, ⟨rfl, rfl⟩, rfl⟩

end Stencil.Template
