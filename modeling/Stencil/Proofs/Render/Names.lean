import Stencil.Proofs.Text.Fields
import Stencil.Proofs.Value.Mapping

/-!
# Paths of names

An identifier is no position and has nothing in it that paths are joined with, so a path of identifiers
with dots between them is read as the sequence of its names, and it can always be read.

In a loop such a path either begins with a word for the item, `this` or the name of the item, or it
does not. In the one case it is a path in the item; for the array of an inner loop it continues the
path of the outer one by the item that stands for all items (`continuedPath_field`).
-/

namespace Stencil.Render

open Text

/-! ### Identifiers -/

/-- A character of an identifier: an ASCII letter, digit or underscore, or one outside ASCII that is no
white space. -/
def isIdentifierChar (c : Char) : Bool := isAsciiWord c || (0x80 ≤ c.toNat && !isBlank c)

/-- An identifier, in any script. -/
structure IsIdentifier (t : Text) : Prop where
  ne_nil : t ≠ []
  isIdentifierChar_of_mem : ∀ c ∈ t, isIdentifierChar c = true
  isDigit_head : ∀ c ∈ t.head?, isDigit c = false

instance : DecidablePred IsIdentifier := fun t =>
  decidable_of_iff (t ≠ [] ∧ (∀ c ∈ t, isIdentifierChar c = true) ∧ ∀ c ∈ t.head?, isDigit c = false)
    ⟨fun h => ⟨h.1, h.2.1, h.2.2⟩, fun h => ⟨h.1, h.2, h.3⟩⟩

/-- The characters of words are visible ASCII characters. -/
private theorem toNat_of_isAsciiWord {c : Char} (h : isAsciiWord c = true) :
    33 ≤ c.toNat ∧ c.toNat < 0x80 := by
  simp only [isAsciiWord, isAsciiLetter, isAsciiDigit, Bool.or_eq_true, Bool.and_eq_true,
    decide_eq_true_eq, beq_iff_eq, Char.le_def, UInt32.le_iff_toNat_le] at h
  change 33 ≤ c.val.toNat ∧ c.val.toNat < 0x80
  rcases h with ((h | h) | h) | rfl
  · change 97 ≤ c.val.toNat ∧ c.val.toNat ≤ 122 at h
    omega
  · change 65 ≤ c.val.toNat ∧ c.val.toNat ≤ 90 at h
    omega
  · change 48 ≤ c.val.toNat ∧ c.val.toNat ≤ 57 at h
    omega
  · decide

/-- No character of an identifier is white space. -/
theorem isBlank_of_isIdentifierChar {c : Char} (h : isIdentifierChar c = true) : isBlank c = false := by
  rw [isIdentifierChar, Bool.or_eq_true] at h
  rcases h with h | h
  · obtain ⟨hlow, hhigh⟩ := toNat_of_isAsciiWord h
    simp [isBlank]
    omega
  · simp_all

namespace IsIdentifier

variable {t : Text}

/-- Other characters are not in an identifier. -/
theorem not_mem (h : IsIdentifier t) {c : Char} (hc : isIdentifierChar c = false) : c ∉ t := fun hmem => by
  simp [h.isIdentifierChar_of_mem c hmem] at hc

/-- No character of an identifier separates steps. -/
theorem isSeparator_of_mem (h : IsIdentifier t) : ∀ c ∈ t, Path.isSeparator c = false := by
  intro c hc
  have hdot : c ≠ '.' := fun he => h.not_mem (by decide) (he ▸ hc)
  have hopen : c ≠ '[' := fun he => h.not_mem (by decide) (he ▸ hc)
  have hclose : c ≠ ']' := fun he => h.not_mem (by decide) (he ▸ hc)
  simp [Path.isSeparator, hdot, hopen, hclose]

/-- An identifier is no position. -/
theorem all_isDigit (h : IsIdentifier t) : t.all isDigit = false := by
  cases t with
  | nil => exact absurd rfl h.ne_nil
  | cons c cs => simp [h.isDigit_head c rfl]

end IsIdentifier

/-! ### Paths of names -/

/-- Identifiers with dots between them. -/
inductive IsNamePath : Text → Prop
  | name {a : Text} (isIdentifier : IsIdentifier a) : IsNamePath a
  | field {a t : Text} (isIdentifier : IsIdentifier a) (isNamePath : IsNamePath t) :
      IsNamePath (a ++ '.' :: t)

section Parse

variable {a : Text} (h : IsIdentifier a)

include h

/-- As a step, an identifier is a key. -/
private theorem segment_identifier : Path.segment a = .key (String.ofList a) := by
  rw [Path.segment, h.all_isDigit]
  rfl

private theorem fields_name : Path.fields a = [a] := by
  simp [Path.fields, splitBy_of_forall h.isSeparator_of_mem, h.ne_nil]

/-- Before a dot, an identifier is a field by itself. -/
private theorem fields_field (t : Text) : Path.fields (a ++ '.' :: t) = a :: Path.fields t := by
  simp [Path.fields, splitBy_append (show Path.isSeparator '.' = true from rfl),
    splitBy_of_forall h.isSeparator_of_mem, h.ne_nil]

/-- An identifier is a path of one step. -/
theorem parse_name : Path.parse a = [.key (String.ofList a)] := by
  simp [Path.parse, fields_name h, segment_identifier h]

/-- An identifier before a dot is the first step of a path. -/
theorem parse_field (t : Text) :
    Path.parse (a ++ '.' :: t) = .key (String.ofList a) :: Path.parse t := by
  simp [Path.parse, fields_field h, segment_identifier h]

end Parse

namespace IsNamePath

variable {t : Text}

theorem ne_nil (h : IsNamePath t) : t ≠ [] := by
  cases h with
  | name h => exact h.ne_nil
  | field h _ => simp

/-- Other characters than dots are not in a path of names. -/
theorem not_mem (h : IsNamePath t) {c : Char} (hc : isIdentifierChar c = false) (hdot : c ≠ '.') :
    c ∉ t := by
  induction h with
  | name h => exact h.not_mem hc
  | field h _ ih => simp [h.not_mem hc, hdot, ih]

/-- A path of names has no white space. -/
theorem isBlank_of_mem (h : IsNamePath t) : ∀ c ∈ t, isBlank c = false := by
  intro c hc
  by_contra hblank
  have hchar : isIdentifierChar c = false := by
    by_contra hn
    exact hblank (isBlank_of_isIdentifierChar (by simpa using hn))
  refine h.not_mem hchar ?_ hc
  rintro rfl
  exact hblank (by decide)

/-- A path of names is read without fail. -/
theorem read_eq (h : IsNamePath t) : Path.read t = .ok (Path.parse t) := by
  have hfields : (Path.fields t).forM Path.checkField = .ok () := by
    induction h with
    | name h =>
      rw [fields_name h]
      simp [Path.checkField, h.all_isDigit]
    | @field a t h _ ih =>
      have ha : Path.checkField a = .ok () := by simp [Path.checkField, h.all_isDigit]
      rw [fields_field h]
      change (do Path.checkField a; (Path.fields t).forM Path.checkField) = .ok ()
      rw [ha, ih]
      rfl
  rw [Path.read, hfields]
  rfl

theorem trim_eq (h : IsNamePath t) : trim t = t := trim_of_forall h.isBlank_of_mem

end IsNamePath

/-- A text is a path of names exactly if all its fields between dots are identifiers. -/
theorem isNamePath_iff {t : Text} : IsNamePath t ↔ ∀ a ∈ splitBy (· == '.') t, IsIdentifier a := by
  have hname : ∀ {a : Text}, '.' ∉ a → splitBy (· == '.') a = [a] := fun h =>
    splitBy_of_forall fun c hc => by simpa using fun (he : c = '.') => h (he ▸ hc)
  have hfield : ∀ {a : Text}, '.' ∉ a → ∀ u,
      splitBy (· == '.') (a ++ '.' :: u) = a :: splitBy (· == '.') u := fun h u => by
    rw [splitBy_append (by rfl), hname h, List.singleton_append]
  refine ⟨fun h => ?_, fun h => ?_⟩
  · induction h with
    | name h => simpa [hname (h.not_mem (c := '.') (by decide))] using h
    | field h _ ih =>
      rw [hfield (h.not_mem (by decide))]
      exact List.forall_mem_cons.mpr ⟨h, ih⟩
  · induction hlength : t.length using Nat.strong_induction_on generalizing t with
    | _ n ih =>
      by_cases hdot : '.' ∈ t
      · obtain ⟨a, u, rfl, ha⟩ := List.eq_append_cons_of_mem hdot
        rw [hfield ha, List.forall_mem_cons] at h
        exact .field h.1 (ih u.length (by simp at hlength; omega) h.2 rfl)
      · rw [hname hdot] at h
        exact .name (h t (by simp))

instance : DecidablePred IsNamePath := fun _ => decidable_of_iff _ isNamePath_iff.symm

/-- A text of no characters but those of names and those that join them. -/
def IsJoined (t : Text) : Prop := ∀ c ∈ t, isIdentifierChar c = true ∨ c ∈ ['.', '[', ']']

/-- Other characters are not in a path that is joined by dots and positions. -/
theorem IsJoined.not_mem {t : Text} (h : IsJoined t) {c : Char} (hc : isIdentifierChar c = false)
    (hjoin : c ∉ ['.', '[', ']']) : c ∉ t := fun hmem =>
  (h c hmem).elim (by simp [hc]) hjoin

/-- A path of names is joined by dots. -/
theorem IsNamePath.isJoined {t : Text} (h : IsNamePath t) : IsJoined t := by
  intro c hc
  by_cases hchar : isIdentifierChar c = true
  · exact .inl hchar
  · refine .inr ?_
    by_contra hjoin
    exact h.not_mem (by simpa using hchar) (by rintro rfl; simp at hjoin) hc

/-! ### Words for the item -/

section Behind

variable {a b : Text}

private theorem behindName?_self (h : a ≠ []) : behindName? a a = some [] := by
  simp [behindName?, h]

/-- Behind the first name and its dot the rest of the path stands. -/
private theorem behindName?_field (h : a ≠ []) (t : Text) :
    behindName? a (a ++ '.' :: t) = some t := by
  have hbehind : after? (a ++ ['.']) (a ++ '.' :: t) = some t := by
    have := after?_append (a ++ ['.']) t
    rwa [List.append_assoc] at this
  simp [behindName?, h, hbehind]

/-- A path does not start at a name that its first name is not. -/
private theorem behindName?_of_ne (ha : '.' ∉ a) (hb : '.' ∉ b) (h : b ≠ a) (t : Text) :
    behindName? a b = none ∧ behindName? a (b ++ '.' :: t) = none := by
  have hdot : ∀ {u : Text}, a ++ ['.'] <+: b ++ '.' :: u → b = a := by
    rintro u ⟨v, hv⟩
    have hcut : ∀ {x : Text} (y : Text), '.' ∉ x → (x ++ '.' :: y).takeWhile (· != '.') = x := by
      intro x y hx
      have hall : ∀ c ∈ x, (c != '.') = true := by
        intro c hc
        have hne : c ≠ '.' := by
          rintro rfl
          exact hx hc
        simpa using hne
      rw [List.takeWhile_append_of_pos hall]
      simp
    have hsame := congrArg (List.takeWhile (· != '.')) hv
    rw [List.append_assoc, List.singleton_append, hcut _ ha, hcut _ hb] at hsame
    exact hsame.symm
  have hself : after? (a ++ ['.']) b = none := by
    refine after?_eq_none_iff.mpr fun hp => hb (hp.subset (by simp))
  have hfield : after? (a ++ ['.']) (b ++ '.' :: t) = none :=
    after?_eq_none_iff.mpr fun hp => h (hdot hp)
  have hne : b ++ '.' :: t ≠ a := fun he => ha (he ▸ by simp)
  simp [behindName?, h, hself, hfield, hne]

end Behind

section ItemWord

variable {itemVar : Option String} {word : String} {t : Text}

/-- The word for the item is an identifier. -/
theorem isIdentifier_this : IsIdentifier "this".toList := by decide

private theorem toList_ne {a b : String} (h : a ≠ b) : a.toList ≠ b.toList := fun he =>
  h (String.toList_injective he)

/-- A path is relative to the item if it begins with one of the words for it. -/
theorem relativePath_eq (h : IsNamePath t) : relativePath t itemVar =
    ((behindName? "this".toList t).or
      (itemVar.bind fun name => behindName? name.toList t)).getD t := by
  rw [relativePath, h.trim_eq]

/-- Seen from the item, a word for the item is the empty path. -/
theorem relativePath_word (hword : IsItemWord itemVar word) (h : IsIdentifier word.toList) :
    relativePath word.toList itemVar = [] := by
  rw [relativePath_eq (.name h)]
  by_cases hthis : word = "this"
  · subst hthis
    rw [behindName?_self h.ne_nil, Option.some_or, Option.getD_some]
  · obtain rfl := hword.resolve_left hthis
    have hnone := (behindName?_of_ne (isIdentifier_this.not_mem rfl) (h.not_mem rfl)
      (toList_ne hthis) []).1
    rw [hnone, Option.none_or, Option.bind_some, behindName?_self h.ne_nil, Option.getD_some]

/-- Seen from the item, a path that begins with a word for the item is what is behind the word. -/
theorem relativePath_field (hword : IsItemWord itemVar word) (h : IsIdentifier word.toList)
    (ht : IsNamePath t) : relativePath (word.toList ++ '.' :: t) itemVar = t := by
  rw [relativePath_eq (.field h ht)]
  by_cases hthis : word = "this"
  · subst hthis
    rw [behindName?_field h.ne_nil, Option.some_or, Option.getD_some]
  · obtain rfl := hword.resolve_left hthis
    have hnone := (behindName?_of_ne (isIdentifier_this.not_mem rfl) (h.not_mem rfl)
      (toList_ne hthis) t).2
    rw [hnone, Option.none_or, Option.bind_some, behindName?_field h.ne_nil, Option.getD_some]

/-- Seen from the item, a path whose first name is no word for the item is the same path. -/
theorem relativePath_of_ne {a : Text} (h : IsIdentifier a) (hword : ¬ IsItemWord itemVar (String.ofList a))
    (hvar : ∀ v ∈ itemVar, IsIdentifier v.toList) :
    relativePath a itemVar = a ∧ ∀ t, IsNamePath t → relativePath (a ++ '.' :: t) itemVar = a ++ '.' :: t := by
  obtain ⟨hthis, hname⟩ := not_or.mp hword
  have hne : ∀ {b : String}, String.ofList a ≠ b → a ≠ b.toList := fun hb he =>
    hb (by rw [he, String.ofList_toList])
  have hdot : '.' ∉ a := h.not_mem (by decide)
  have hbehind := fun t => behindName?_of_ne (isIdentifier_this.not_mem (by decide)) hdot (hne hthis) t
  have hitem : ∀ t, (itemVar.bind fun name => behindName? name.toList a) = none ∧
      (itemVar.bind fun name => behindName? name.toList (a ++ '.' :: t)) = none := by
    intro t
    cases hv : itemVar with
    | none => exact ⟨rfl, rfl⟩
    | some v =>
      have hva : String.ofList a ≠ v := fun he => hname (he ▸ hv)
      exact behindName?_of_ne ((hvar v hv).not_mem (by decide)) hdot (hne hva) t
  refine ⟨?_, fun t ht => ?_⟩
  · rw [relativePath_eq (.name h), (hbehind []).1, (hitem []).1]
    rfl
  · rw [relativePath_eq (.field h ht), (hbehind t).2, (hitem t).2]
    rfl

/-- The item of an outer loop has the path of the item that stands for all items. -/
theorem continuedPath_word (hword : IsItemWord itemVar word) (h : IsIdentifier word.toList)
    (outer : Text) : continuedPath word.toList outer itemVar = outer ++ ['.', '[', '0', ']'] := by
  have hne : ([] : Text) ≠ trim word.toList := by
    rw [(IsNamePath.name h).trim_eq]
    exact h.ne_nil.symm
  have hlit : ".[0]".toList = ['.', '[', '0', ']'] := by decide
  rw [continuedPath, relativePath_word hword h, if_neg hne, hlit]
  rfl

/-- An array in the item of an outer loop continues the path of the item that stands for all items. -/
theorem continuedPath_field (hword : IsItemWord itemVar word) (h : IsIdentifier word.toList)
    (ht : IsNamePath t) (outer : Text) : continuedPath (word.toList ++ '.' :: t) outer itemVar =
      outer ++ '.' :: '[' :: '0' :: ']' :: '.' :: t := by
  have hne : t ≠ trim (word.toList ++ '.' :: t) := by
    rw [(IsNamePath.field h ht).trim_eq]
    intro he
    have hlength := congrArg List.length he
    simp at hlength
    omega
  have hlit : ".[0]".toList = ['.', '[', '0', ']'] := by decide
  rw [continuedPath, relativePath_field hword h ht, if_neg hne, hlit, if_neg (by simp [ht.ne_nil])]
  simp

end ItemWord

/-! ### Names in data -/

section Resolve

variable {entries : Mapping}

/-- In a mapping, a name is resolved to its entry. -/
theorem resolve_name {a : Text} (h : IsIdentifier a) :
    (Value.map entries).resolve a = (entries.at? (String.ofList a)).getD .absent := by
  rw [Value.resolve, parse_name h, Value.follow, Value.follow]
  simp only [Value.isNothing, Bool.false_eq_true, if_false, Value.step, Value.entryAt, Mapping.at?,
    Segment.toValue]
  cases Mapping.get? (.str (String.ofList a)) entries <;> rfl

/-- In a mapping, a path of names goes on from the entry of the first one. -/
theorem resolve_field {a : Text} (h : IsIdentifier a) (t : Text) :
    (Value.map entries).resolve (a ++ '.' :: t) =
      ((entries.at? (String.ofList a)).getD .absent).resolve t := by
  rw [Value.resolve, parse_field h, Value.follow, Value.resolve]
  simp only [Value.isNothing, Bool.false_eq_true, if_false, Value.step, Value.entryAt, Mapping.at?,
    Segment.toValue]
  cases Mapping.get? (.str (String.ofList a)) entries <;> rfl

variable {itemVar : Option String} {word : String} (item : Value)
  (hword : IsItemWord itemVar word) (h : IsIdentifier word.toList) (hvar : itemVar ≠ some "")

include hword h hvar

/-- In the data of a loop a path that begins with a word for the item leads into the item. -/
theorem resolve_withItem_field (t : Text) :
    (Value.map (withItem entries (nameValue itemVar) item)).resolve (word.toList ++ '.' :: t) =
      item.resolve t := by
  rw [resolve_field h, String.ofList_toList, at?_withItem entries item hword hvar, Option.getD_some]

end Resolve

end Stencil.Render
