import Stencil.Proofs.Markup.Token

/-!
# Elements side by side

`Siblings` is markup as a sequence of text and elements, void elements among them, written as they
come: with names in any case of letters, with any attributes, closing themselves or not. Of such markup
it can be said what the search for an alternative only guesses from a count of tags: which alternatives
stand directly in it, and which ones belong to an element (`Siblings.Shelters`). The count is right:
inside an element it is never zero, and behind the element it is what it was before
(`Siblings.passesAt_written`).

The main statement is `alternative?_siblings`: **behind siblings that shelter their alternatives, the
alternative that is found is the one that was put there, up to its first closing tag; and without one
there is none.** A void element is known by its name in lower case. An element that is written with a
start and an end tag under such a name, in another case, shelters nothing, since its tags count for
nothing.
-/

namespace Stencil.Template

open Text

/-! ### Tags -/

/-- The name of an element: a letter, and characters of names behind it. -/
structure ElementName where
  /-- The name as it is written. -/
  text : Text
  isName : ∃ c cs, text = c :: cs ∧ isAsciiLetter c = true ∧ ∀ x ∈ cs, isTagNameChar x = true

namespace ElementName

variable (n : ElementName)

/-- The name in lower case. -/
def folded : Text := lower n.text

/-- Whether the name is that of a void element. -/
def isVoid : Bool := Markup.isVoid (String.ofList n.folded)

/-- The end tag under a name. -/
def closing : Text := '<' :: '/' :: (n.text ++ ['>'])

theorem tag?_closing_append (rest : Text) :
    tag? (n.closing ++ rest) = some (⟨true, n.folded, false⟩, rest) := by
  obtain ⟨c, cs, htext, hc, hcs⟩ := n.isName
  rw [closing, folded, htext]
  exact tag?_closing hc hcs rest

end ElementName

/-- A start tag: a name, and attributes that end neither the name nor the tag too early. -/
structure StartTag where
  /-- The name. -/
  name : ElementName
  /-- All that is written behind the name. -/
  attributes : Text
  end_not_mem : '>' ∉ attributes
  head_attributes : ∀ c ∈ attributes.head?, isTagNameChar c = false
  last_attributes : attributes.getLast? ≠ some '/'

namespace StartTag

variable (e : StartTag)

/-- The text of a start tag, with or without a slash before its end. -/
def written (isClosed : Bool) : Text :=
  '<' :: (e.name.text ++ ((e.attributes ++ if isClosed then ['/'] else []) ++ ['>']))

theorem tag?_written_append (isClosed : Bool) (rest : Text) :
    tag? (e.written isClosed ++ rest) = some (⟨false, e.name.folded, isClosed⟩, rest) := by
  obtain ⟨c, cs, htext, hc, hcs⟩ := e.name.isName
  have hinside : '>' ∉ e.attributes ++ if isClosed then ['/'] else [] := by
    cases isClosed <;> simp [e.end_not_mem]
  have hhead : ∀ x ∈ (e.attributes ++ if isClosed then ['/'] else []).head?,
      isTagNameChar x = false := by
    intro x hx
    have hattributes := e.head_attributes
    cases ha : e.attributes with
    | cons a as => exact hattributes x (by simpa [ha] using hx)
    | nil =>
      cases isClosed with
      | false => simp [ha] at hx
      | true =>
        obtain rfl : '/' = x := by simpa [ha] using hx
        decide
  have hlast : ((e.attributes ++ if isClosed then ['/'] else []).getLast? == some '/') = isClosed := by
    cases isClosed with
    | false => simpa using e.last_attributes
    | true => simp
  have htag := tag?_opening hc hcs hinside hhead rest
  rw [hlast] at htag
  rw [written, ElementName.folded, htext]
  exact htag

/-- The attributes of properties, as they are written behind a name. -/
def ofProperties (name : ElementName) (props : Mapping)
    (h : ∀ a ∈ Markup.attributesOf props, '>' ∉ a.1.toList) : StartTag where
  name := name
  attributes := Markup.writtenAttributes (Markup.attributesOf props)
  end_not_mem := fun hmem => by
    obtain ⟨a, ha, hend⟩ := List.mem_flatMap.mp hmem
    exact not_mem_writtenAttribute (h a ha) (.inr rfl) hend
  head_attributes := fun c hc => by
    cases hattributes : Markup.attributesOf props with
    | nil => simp [hattributes, Markup.writtenAttributes] at hc
    | cons a rest =>
      obtain rfl : ' ' = c := by
        simpa [hattributes, Markup.writtenAttributes, writtenAttribute] using hc
      decide
  last_attributes := by
    rcases List.eq_nil_or_concat (Markup.attributesOf props) with hattributes | ⟨front, a, hattributes⟩
    · simp [hattributes, Markup.writtenAttributes]
    · simp [hattributes, Markup.writtenAttributes, writtenAttribute, List.getLast?_append,
        List.getLast?_cons]

/-- **Rendered tags.** The start tag of an element is one of these tags, and it closes itself if the
name is spelled as that of a void element. -/
theorem eq_written_of_startTag {name : ElementName} {props : Mapping}
    (h : ∀ a ∈ Markup.attributesOf props, '>' ∉ a.1.toList) {t : Text}
    (ht : Markup.startTag (String.ofList name.text) props = .ok t) :
    t = (ofProperties name props h).written (Markup.isVoid (String.ofList name.text)) := by
  rw [Markup.eq_of_startTag ht]
  simp [Markup.Token.written, Markup.insideStart, written, ofProperties]

end StartTag

/-- The end tag of an element that has one. -/
theorem ElementName.endTag_eq_closing {name : ElementName}
    (h : Markup.isVoid (String.ofList name.text) = false) :
    Markup.endTag (String.ofList name.text) = name.closing := by
  simp [Markup.endTag, h, closing]

/-! ### Siblings -/

/-- Markup as a sequence of text and elements. Each part has the parts behind it as its last argument. -/
inductive Siblings where
  /-- Nothing more. -/
  | done
  /-- A run of text. -/
  | text (t : Text) (plain : '<' ∉ t) (rest : Siblings)
  /-- A tag by itself: it closes itself, or its name is that of a void element. -/
  | single (e : StartTag) (isClosed : Bool) (isSingle : isClosed = true ∨ e.name.isVoid = true)
      (rest : Siblings)
  /-- An element around what is inside it. The case of letters may be another one in its end tag. -/
  | pair (e : StartTag) (ending : ElementName) (isEnding : ending.folded = e.name.folded)
      (inner rest : Siblings)

namespace Siblings

/-- The text of siblings. -/
def written : Siblings → Text
  | done => []
  | text t _ rest => t ++ rest.written
  | single e isClosed _ rest => e.written isClosed ++ rest.written
  | pair e ending _ inner rest =>
    e.written false ++ (inner.written ++ ending.closing) ++ rest.written

/-- **Sheltered alternatives.** Every alternative is inside an element that is not void. -/
def Shelters : Siblings → Prop
  | done => True
  | text _ _ rest => rest.Shelters
  | single e _ _ rest => e.name.folded ≠ elseName ∧ rest.Shelters
  | pair e _ _ inner rest =>
    e.name.folded ≠ elseName ∧ (e.name.isVoid = true → inner.Shelters) ∧ rest.Shelters

/-! ### Going over siblings -/

/-- The depth behind a start tag that is not the last one of its element. -/
private theorem depthAfter_start (n : ElementName) (depth : ℕ) :
    depthAfter ⟨false, n.folded, false⟩ depth = if n.isVoid then depth else depth + 1 := by
  cases h : n.isVoid <;> simp_all [depthAfter, ElementName.isVoid]

private theorem depthAfter_end (n : ElementName) (depth : ℕ) :
    depthAfter ⟨true, n.folded, false⟩ (if n.isVoid then depth else depth + 1) = depth := by
  cases h : n.isVoid <;> simp_all [depthAfter, ElementName.isVoid]

private theorem depthAfter_single {e : StartTag} {isClosed : Bool}
    (h : isClosed = true ∨ e.name.isVoid = true) (depth : ℕ) :
    depthAfter ⟨false, e.name.folded, isClosed⟩ depth = depth := by
  rcases h with rfl | h
  · simp [depthAfter]
  · have hvoid : Markup.isVoid (String.ofList e.name.folded) = true := h
    simp [depthAfter, hvoid]

/-- The search goes over a start tag below the level of the body, and on that level unless the tag is
that of an alternative. -/
private theorem findAlternative_written {e : StartTag} {isClosed : Bool} {depth : ℕ}
    (h : e.name.folded ≠ elseName ∨ depth ≠ 0) (rest : Text) :
    findAlternative depth 0 (e.written isClosed ++ rest) =
      (findAlternative (depthAfter ⟨false, e.name.folded, isClosed⟩ depth) 0 rest).map
        (.prepend (e.written isClosed)) :=
  findAlternative_tag (by simp [StartTag.written]) (e.tag?_written_append isClosed rest)
    (h.imp_right .inr)

private theorem findAlternative_closing (n : ElementName) (depth : ℕ) (rest : Text) :
    findAlternative depth 0 (n.closing ++ rest) =
      (findAlternative (depthAfter ⟨true, n.folded, false⟩ depth) 0 rest).map
        (.prepend n.closing) :=
  findAlternative_tag (by simp [ElementName.closing]) (n.tag?_closing_append rest) (.inr (.inl rfl))

/-- What passes one level deeper passes inside an element, and as deep as the element inside one whose
name is that of a void element. -/
private theorem passesAt_pair {e : StartTag} {ending : ElementName} {inner : Text} {depth : ℕ}
    (hending : ending.folded = e.name.folded) (h : e.name.folded ≠ elseName ∨ depth ≠ 0)
    (hinner : PassesAt (if e.name.isVoid then depth else depth + 1) inner) :
    PassesAt depth (e.written false ++ (inner ++ ending.closing)) := fun rest => by
  have hdepth : depthAfter ⟨true, ending.folded, false⟩
      (if e.name.isVoid then depth else depth + 1) = depth := by
    rw [hending]
    exact depthAfter_end e.name depth
  rw [List.append_assoc, List.append_assoc, findAlternative_written h, depthAfter_start, hinner,
    findAlternative_closing, hdepth, Option.map_map, Option.map_map]
  congr 1
  funext a
  simp

/-- **The count of open elements.** The search goes over siblings below the level of the body, whatever
is in them, and on that level if they shelter their alternatives; and it is as deep behind them as it was
before. -/
theorem passesAt_written (s : Siblings) (depth : ℕ) (h : s.Shelters ∨ depth ≠ 0) :
    PassesAt depth s.written := by
  induction s generalizing depth with
  | done => exact passes_nil depth
  | text t plain rest ih => exact PassesAt.append (passes_of_not_mem plain depth) (ih depth h)
  | single e isClosed isSingle rest ih =>
    have htag : PassesAt depth (e.written isClosed) := fun behind => by
      rw [findAlternative_written (h.imp_left And.left), depthAfter_single isSingle]
    exact htag.append (ih depth (h.imp_left And.right))
  | pair e ending isEnding inner rest ihi ihr =>
    have hinner : PassesAt (if e.name.isVoid then depth else depth + 1) inner.written := by
      refine ihi _ ?_
      cases hvoid : e.name.isVoid with
      | true => exact h.imp_left fun h => h.2.1 hvoid
      | false => exact .inr (by simp)
    exact (passesAt_pair isEnding (h.imp_left And.left) hinner).append
      (ihr depth (h.imp_left fun h => h.2.2))

end Siblings

/-! ### The alternative -/

/-- A text without the closing tag of alternatives ends where that tag is put behind it. -/
private theorem cut?_elseClosing {inside : Text} (h : ¬ elseClosing <:+: inside) (after : Text) :
    cut? elseClosing (inside ++ (elseClosing ++ after)) = some (inside, after) := by
  refine cut?_append (everyTail_append_of_absent h ?_)
  simp [elseClosing_eq]

/-- **The alternative among siblings.** Behind siblings that shelter their alternatives, an alternative
is found where it begins, and ends at its first closing tag. Without one, none is found. -/
theorem alternative?_siblings (s : Siblings) (h : s.Shelters) :
    (∀ inside after, ¬ elseClosing <:+: inside →
      alternative? (s.written ++ elseOpening ++ inside ++ elseClosing ++ after) =
        some ⟨s.written, inside, after⟩) ∧
      alternative? s.written = none := by
  have hpasses := s.passesAt_written 0 (.inl h)
  refine ⟨fun inside after hinside => ?_, alternative?_of_passesAt hpasses⟩
  have hfound := alternative?_append_of_cut? hpasses (cut?_elseClosing hinside after)
  simpa only [List.append_assoc] using hfound

/-- A name that is written with letters. -/
private def letters (c : Char) (cs : Text)
    (h : isAsciiLetter c = true ∧ ∀ x ∈ cs, isTagNameChar x = true) : ElementName :=
  ⟨c :: cs, c, cs, rfl, h⟩

/-- A notice around an alternative of its own, with a picture and a list behind it. -/
def notice : Siblings :=
  let division := letters 'D' ['I', 'V'] (by decide)
  let pseudo := letters 'H' "b-else".toList (by decide)
  let picture := letters 'i' "mg".toList (by decide)
  let list := letters 'h' "b-each".toList (by decide)
  .text "1 > 0".toList (by decide) <|
    .pair (.ofProperties division [(.str "class_name", .str "a>b")] (by decide))
      (letters 'd' ['i', 'v'] (by decide)) (by decide)
      (.pair ⟨pseudo, [], by simp, by simp, by simp⟩ pseudo rfl (.text "own".toList (by decide) .done)
        .done) <|
    .single ⟨letters 'B' ['R'] (by decide), [], by simp, by simp, by simp⟩ false (.inr (by decide)) <|
    .single (.ofProperties picture [(.str "src", .str "/")] (by decide)) true (.inl rfl) <|
    .pair (.ofProperties list [(.str "array", .str "xs")] (by decide)) list rfl .done .done

/-- The notice as it is written. -/
def noticeText : Text :=
  ("1 > 0<DIV class=\"a&gt;b\"><Hb-else>own</Hb-else></div><BR><img src=\"/\"/>" ++
    "<hb-each array=\"xs\"></hb-each>").toList

theorem alternative?_siblings_notice :
    notice.Shelters ∧ ¬ elseClosing <:+: "none<hb-else>".toList ∧
      alternative? (noticeText ++ "<hb-else>none<hb-else></hb-else></p></hb-else>".toList) =
        some ⟨noticeText, "none<hb-else>".toList, "</p></hb-else>".toList⟩ ∧
      alternative? noticeText = none := by
  have hshelters : notice.Shelters := by
    refine ⟨by decide, fun h => ?_, by decide, by decide, by decide, fun _ => trivial, trivial⟩
    exact absurd h (by decide)
  have hinside : ¬ elseClosing <:+: "none<hb-else>".toList := by decide
  have hwritten : notice.written = noticeText := by decide +kernel
  have hregion : "<hb-else>none<hb-else></hb-else></p></hb-else>".toList =
      elseOpening ++ "none<hb-else>".toList ++ elseClosing ++ "</p></hb-else>".toList := by decide
  obtain ⟨hfound, hnone⟩ := alternative?_siblings notice hshelters
  rw [hwritten] at hfound hnone
  refine ⟨hshelters, hinside, ?_, hnone⟩
  rw [hregion]
  simpa only [List.append_assoc] using hfound _ "</p></hb-else>".toList hinside

end Stencil.Template
