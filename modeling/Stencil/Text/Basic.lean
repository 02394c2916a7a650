/-!
# Text as a list of characters

Everything that is scanned here — paths, conditions, markup, documents — is a `Text`, a list of
characters. This module has the operations on literal pieces of text: cutting a text at a word,
splitting it at a separator, and replacing every occurrence of what a *matcher* recognises.

A matcher looks at the front of a text and answers with what it recognised and the text behind it.
`Text.pieces` runs a matcher over a whole text from left to right. An occurrence is taken where it
starts, and the search goes on behind it; a matcher that recognises the empty text is asked at every
position, the end included, and after every occurrence.
-/

namespace Stencil

/-- A text is the list of its characters. -/
abbrev Text := List Char

namespace Text

/-! ### Literal words -/

/-- The text behind a literal word, if the text starts with it. -/
def after? : (word t : Text) → Option Text
  | [], t => some t
  | _ :: _, [] => none
  | w :: ws, c :: cs => if w = c then after? ws cs else none

/-- Whether a text starts with a literal word. -/
def startsWith (word t : Text) : Bool := (after? word t).isSome

/-- Whether a text ends with a literal word. -/
def endsWith (word t : Text) : Bool := startsWith word.reverse t.reverse

/-- The texts before and behind the first occurrence of a word. -/
def cut? (word : Text) : Text → Option (Text × Text)
  | [] => if word = [] then some ([], []) else none
  | c :: cs =>
    match after? word (c :: cs) with
    | some rest => some ([], rest)
    | none => (cut? word cs).map fun (before, rest) => (c :: before, rest)

/-- Whether a word occurs somewhere in a text. -/
def has (word t : Text) : Bool := (cut? word t).isSome

theorem after?_append (word t : Text) : after? word (word ++ t) = some t := by
  induction word with
  | nil => cases t <;> rfl
  | cons w ws ih => simp [after?, ih]

theorem eq_append_of_after? {word t rest : Text} (h : after? word t = some rest) :
    t = word ++ rest := by
  induction word generalizing t with
  | nil => cases t <;> simp_all [after?]
  | cons w ws ih =>
    cases t with
    | nil => simp [after?] at h
    | cons c cs =>
      simp only [after?] at h
      split at h
      · next hw => subst hw; rw [ih h]; rfl
      · cases h

/-- A text starts with a word exactly when the word and a rest make it up. -/
theorem after?_eq_some_iff {word t rest : Text} :
    after? word t = some rest ↔ t = word ++ rest :=
  ⟨eq_append_of_after?, fun h => h ▸ after?_append word rest⟩

/-- Cutting at a word loses nothing. -/
theorem eq_of_cut? {word t before rest : Text} (h : cut? word t = some (before, rest)) :
    t = before ++ word ++ rest := by
  induction t generalizing before with
  | nil =>
    simp only [cut?] at h
    split at h
    · next hw => simp_all
    · cases h
  | cons c cs ih =>
    simp only [cut?] at h
    split at h
    · next r hr =>
      obtain ⟨rfl, rfl⟩ : [] = before ∧ r = rest := by simpa using h
      simpa using eq_append_of_after? hr
    · obtain ⟨⟨b, r⟩, hb, he⟩ := Option.map_eq_some_iff.1 h
      obtain ⟨rfl, rfl⟩ : c :: b = before ∧ r = rest := by simpa using he
      simp [ih hb]

/-! ### Occurrences -/

/-- What scanning a text with a matcher finds: characters left alone and occurrences. -/
inductive Piece (α : Type) where
  /-- A character that starts no occurrence. -/
  | char (c : Char)
  /-- An occurrence. -/
  | hit (found : α)

/-- What an occurrence at the front of a text is, and the text behind it. -/
abbrev Matcher (α : Type) := Text → Option (α × Text)

/-- Scans a text after skipping the characters of the last occurrence. -/
def piecesFrom {α : Type} (m : Matcher α) : (skip : Nat) → Text → List (Piece α)
  | 0, [] => ((m []).map fun found => Piece.hit found.1).toList
  | _ + 1, [] => []
  | skip + 1, _ :: cs => piecesFrom m skip cs
  | 0, c :: cs =>
    match m (c :: cs) with
    | none => .char c :: piecesFrom m 0 cs
    | some (found, rest) =>
      match (c :: cs).length - rest.length with
      | 0 => .hit found :: .char c :: piecesFrom m 0 cs
      | skip + 1 => .hit found :: piecesFrom m skip cs

/-- The characters and occurrences of a text from left to right. -/
def pieces {α : Type} (m : Matcher α) (t : Text) : List (Piece α) := piecesFrom m 0 t

/-- The occurrence in a piece, if it is one. -/
def Piece.found? {α : Type} : Piece α → Option α
  | .char _ => none
  | .hit found => some found

/-- The text of a piece, once it is known what stands for an occurrence. -/
def Piece.text {α : Type} (replacement : α → Text) : Piece α → Text
  | .char c => [c]
  | .hit found => replacement found

/-- All occurrences in a text. -/
def findAll {α : Type} (m : Matcher α) (t : Text) : List α := (pieces m t).filterMap Piece.found?

/-- The text with every occurrence replaced. -/
def replaceEach {α : Type} (m : Matcher α) (replacement : α → Text) (t : Text) : Text :=
  (pieces m t).flatMap (Piece.text replacement)

/-- Recognises a literal word. -/
def literal (word : Text) : Matcher Unit := fun t => (after? word t).map fun rest => ((), rest)

/-- The text with every occurrence of a word replaced by another. -/
def replaceWord (word replacement t : Text) : Text :=
  replaceEach (literal word) (fun _ => replacement) t

/-- The fields between the occurrences. -/
def fieldsOf {α : Type} : List (Piece α) → List Text
  | [] => [[]]
  | .hit _ :: rest => [] :: fieldsOf rest
  | .char c :: rest =>
    match fieldsOf rest with
    | [] => [[c]]
    | field :: fields => (c :: field) :: fields

/-- The fields of a text between the occurrences of a separator. -/
def splitAt (separator t : Text) : List Text := fieldsOf (pieces (literal separator) t)

/-- The fields of a text between single characters that satisfy a test. -/
def splitBy (p : Char → Bool) : Text → List Text
  | [] => [[]]
  | c :: cs =>
    if p c then [] :: splitBy p cs
    else
      match splitBy p cs with
      | [] => [[c]]
      | field :: fields => (c :: field) :: fields

/-- Texts joined by a separator. -/
def joinWith (separator : Text) : List Text → Text
  | [] => []
  | [t] => t
  | t :: ts => t ++ separator ++ joinWith separator ts

theorem fieldsOf_ne_nil {α : Type} (ps : List (Piece α)) : fieldsOf ps ≠ [] := by
  cases ps with
  | nil => simp [fieldsOf]
  | cons p ps =>
    cases p with
    | hit => simp [fieldsOf]
    | char c =>
      rw [fieldsOf]
      split <;> simp

/-- A text without any occurrence is its own only piece-wise reading. -/
theorem replaceEach_of_none {α : Type} {m : Matcher α} (replacement : α → Text) {t : Text}
    (h : ∀ s, s <:+ t → m s = none) : replaceEach m replacement t = t := by
  unfold replaceEach pieces
  induction t with
  | nil => simp [piecesFrom, h [] List.nil_suffix]
  | cons c cs ih =>
    have hc : m (c :: cs) = none := h _ (List.suffix_refl _)
    have ih' := ih fun s hs => h s (hs.trans (List.suffix_cons c cs))
    simp [piecesFrom, hc, Piece.text, ih']

end Text

end Stencil
