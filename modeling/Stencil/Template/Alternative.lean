import Stencil.Template.PseudoTag
import Stencil.Markup.Tag

/-!
# The alternative region of a conditional

The alternative of a conditional is the first `<hb-else>` region that stands directly in its body, in
no other element. The search walks over the tags of the body and counts the open elements: void
elements and tags that close themselves open nothing, and a closing tag never counts below zero. An
opening alternative tag at depth zero ends the search; if it is not spelled exactly as a pseudo-tag is,
or is not closed, there is no alternative.
-/

namespace Stencil.Template

/-- A tag of any element. -/
structure Tag where
  /-- Whether it closes an element. -/
  isClosing : Bool
  /-- The name in lower case. -/
  name : Text
  /-- Whether a slash stands before its end. -/
  isSelfClosing : Bool
  deriving DecidableEq, Repr

/-- A character of a tag name after the first. -/
def isTagNameChar (c : Char) : Bool := Text.isWord c || c == ':' || c == '.' || c == '-'

/-- The text up to the end of a tag, and the text behind it. -/
def tagRest? : Text → Option (Text × Text)
  | [] => none
  | c :: cs =>
    if c = '>' then some ([], cs)
    else (tagRest? cs).map fun (inside, rest) => (c :: inside, rest)

/-- A tag name and the rest of the tag. -/
def namedTag? (isClosing : Bool) : Text → Option (Tag × Text)
  | [] => none
  | c :: cs =>
    if Text.isAsciiLetter c then
      let name := cs.takeWhile isTagNameChar
      (tagRest? (cs.dropWhile isTagNameChar)).map fun (inside, rest) =>
        (⟨isClosing, Text.lower (c :: name), inside.getLast? == some '/'⟩, rest)
    else none

/-- The tag at the front of a text. -/
def tag? : Text.Matcher Tag
  | '<' :: '/' :: rest => namedTag? true rest
  | '<' :: rest => namedTag? false rest
  | _ => none

/-- A conditional body around its alternative region. -/
structure Alternative where
  /-- The text before the region. -/
  before : Text
  /-- The text inside the region. -/
  inside : Text
  /-- The text behind the region. -/
  after : Text
  deriving DecidableEq, Repr

/-- The alternative region at the front of a text, up to its first closing tag. -/
def elseRegion? (t : Text) : Option Alternative := do
  let (inside, after) ← Text.cut? elseClosing (← Text.after? elseOpening t)
  some ⟨[], inside, after⟩

/-- An alternative with one more character before it. -/
def Alternative.cons (c : Char) (a : Alternative) : Alternative := { a with before := c :: a.before }

/-- The name of the alternative pseudo-tag. -/
def elseName : Text := "hb-else".toList

/-- The depth of open elements after a tag. -/
def depthAfter (tag : Tag) (depth : Nat) : Nat :=
  if tag.isSelfClosing || Markup.isVoid (String.ofList tag.name) then depth
  else if tag.isClosing then depth - 1
  else depth + 1

/-- The alternative in the rest of a body, at a depth of open elements and after skipping the
characters of the last tag. -/
def findAlternative : (depth skip : Nat) → Text → Option Alternative
  | _, _, [] => none
  | depth, skip + 1, c :: cs => (findAlternative depth skip cs).map (.cons c)
  | depth, 0, c :: cs =>
    match tag? (c :: cs) with
    | none => (findAlternative depth 0 cs).map (.cons c)
    | some (tag, rest) =>
      if tag.name = elseName && !tag.isClosing && depth == 0 then elseRegion? (c :: cs)
      else (findAlternative (depthAfter tag depth) (cs.length - rest.length) cs).map (.cons c)

/-- The alternative region that stands directly in a conditional body. -/
def alternative? (body : Text) : Option Alternative := findAlternative 0 0 body

/-- A region with its tags is what lies between the text before it and the text behind it. -/
theorem eq_of_elseRegion? {t : Text} {a : Alternative} (h : elseRegion? t = some a) :
    t = a.before ++ elseOpening ++ a.inside ++ elseClosing ++ a.after := by
  simp only [elseRegion?, Option.bind_eq_bind, Option.bind_eq_some_iff, Prod.exists,
    Option.some.injEq] at h
  obtain ⟨u, hu, inside, after, hc, rfl⟩ := h
  rw [Text.eq_append_of_after? hu, Text.eq_of_cut? hc]
  simp

theorem eq_of_findAlternative {depth skip : Nat} {t : Text} {a : Alternative}
    (h : findAlternative depth skip t = some a) :
    t = a.before ++ elseOpening ++ a.inside ++ elseClosing ++ a.after := by
  induction t generalizing depth skip a with
  | nil => cases skip <;> simp [findAlternative] at h
  | cons c cs ih =>
    have step : ∀ {d s : Nat}, (findAlternative d s cs).map (.cons c) = some a →
        c :: cs = a.before ++ elseOpening ++ a.inside ++ elseClosing ++ a.after := by
      intro d s hs
      obtain ⟨b, hb, rfl⟩ := Option.map_eq_some_iff.1 hs
      rw [ih hb]
      simp [Alternative.cons]
    cases skip with
    | succ skip => exact step h
    | zero =>
      simp only [findAlternative] at h
      split at h
      · exact step h
      · split at h
        · exact eq_of_elseRegion? h
        · exact step h

/-- Finding the alternative loses nothing of the body. -/
theorem eq_of_alternative? {body : Text} {a : Alternative} (h : alternative? body = some a) :
    body = a.before ++ elseOpening ++ a.inside ++ elseClosing ++ a.after :=
  eq_of_findAlternative h

end Stencil.Template
