import Stencil.Proofs.Template.Region
import Stencil.Proofs.Text.Fields
import Stencil.Proofs.Text.Unescape
import Stencil.Proofs.Value.Mapping

/-!
# Markup as tags and text

Markup is a sequence of tokens: start tags with their attributes, end tags, and text.
`Token.written` is how a token is written. `read?` goes the other way and knows nothing of how
markup comes about: it cuts the markup at its angle brackets and a tag at its double quotes, decodes
the references in what it finds between them, and gives up where an angle bracket or, between tags,
a double quote is left over.

The main statement is `read?_written`: **markup is read back as the tokens that were written**,
where texts that meet are one text (`joined`), and the names are made of the letters that names are
made of. No text and no value of an attribute, whatever is in it, is ever read as anything else.
-/

namespace Stencil.Markup

open Text Template

/-! ### Tokens -/

/-- A part of markup. -/
inductive Token where
  /-- A start tag with its attributes. -/
  | start (tag : String) (attributes : List (String × Text))
  /-- An end tag. -/
  | finish (tag : String)
  /-- Text between tags. -/
  | text (t : Text)
  deriving DecidableEq, Repr

/-- Attributes as they are written. -/
def writtenAttributes (attributes : List (String × Text)) : Text :=
  attributes.flatMap fun a => writtenAttribute a.1.toList a.2

/-- What stands between the angle brackets of a start tag. -/
def insideStart (tag : String) (attributes : List (String × Text)) : Text :=
  tag.toList ++ writtenAttributes attributes ++ if isVoid tag then ['/'] else []

/-- How a token is written. -/
def Token.written : Token → Text
  | start tag attributes => '<' :: insideStart tag attributes ++ ['>']
  | finish tag => '<' :: '/' :: tag.toList ++ ['>']
  | text t => escape t

/-- A token whose names are made of the letters that names are made of. -/
def Token.IsNamed : Token → Prop
  | start tag attributes =>
    (∀ c ∈ tag.toList, isNameLetter c = true) ∧
      ∀ a ∈ attributes, ∀ c ∈ a.1.toList, isNameLetter c = true
  | finish tag => ∀ c ∈ tag.toList, isNameLetter c = true
  | text _ => True

/-- Tokens behind a text. -/
def joinText (t : Text) : List Token → List Token
  | .text u :: rest => .text (t ++ u) :: rest
  | rest => if t = [] then rest else .text t :: rest

/-- The tokens with texts that meet made one, and without empty texts. -/
def joined : List Token → List Token
  | [] => []
  | .text t :: rest => joinText t (joined rest)
  | tag :: rest => tag :: joined rest

/-! ### Reading -/

/-- The name in a text of the form ` name=`. -/
def attributeName? : Text → Option String
  | ' ' :: rest =>
    if rest.getLast? = some '=' ∧ rest.dropLast.all isNameLetter then
      some (String.ofList rest.dropLast)
    else none
  | _ => none

/-- The attributes that the texts between the double quotes of a tag make up, and the text behind
them. -/
def readAttributes? : List Text → Option (List (String × Text) × Text)
  | [] => none
  | [last] => some ([], last)
  | name :: value :: rest => do
    let name ← attributeName? name
    let (attributes, last) ← readAttributes? rest
    pure ((name, decodeReferences value) :: attributes, last)

/-- The tag that stands between angle brackets. A void element is the one that closes itself. -/
def readTag? : Text → Option Token
  | '/' :: name => if name.all isNameLetter then some (.finish (String.ofList name)) else none
  | inside => do
    let tag := String.ofList (inside.takeWhile isNameLetter)
    let (attributes, last) ←
      readAttributes? (splitBy (· == '"') (inside.dropWhile isNameLetter))
    if last = if isVoid tag then ['/'] else [] then some (.start tag attributes) else none

/-- The text that stands between tags. -/
def readRun? (run : Text) : Option Text :=
  if '>' ∈ run ∨ '"' ∈ run then none else some (decodeReferences run)

/-- What stands behind opening angle brackets: a tag and text behind each of them. -/
def readParts? : List Text → Option (List Token)
  | [] => some []
  | part :: rest => do
    let (inside, run) ← tagRest? part
    let tag ← readTag? inside
    let t ← readRun? run
    pure (tag :: joinText t (← readParts? rest))

/-- **Reading.** The tokens of markup: a text up to the first tag, and each tag with the text behind
it. -/
def read? (markup : Text) : Option (List Token) :=
  match splitBy (· == '<') markup with
  | [] => none
  | run :: parts => do
    let t ← readRun? run
    pure (joinText t (← readParts? parts))

/-! ### Text -/

section Text

variable {t u markup : Text}

theorem joinText_joinText (t u : Text) (tokens : List Token) :
    joinText t (joinText u tokens) = joinText (t ++ u) tokens := by
  have hempty : ∀ rest : List Token, (∀ w more, rest ≠ .text w :: more) →
      joinText t (joinText u rest) = joinText (t ++ u) rest := by
    intro rest hrest
    by_cases hu : u = []
    · simp [joinText, hu]
    · simp [joinText, hu]
  -- only a text at the front goes on with the text before it
  cases tokens with
  | nil => exact hempty [] nofun
  | cons token rest =>
    cases token with
    | text w => simp [joinText]
    | start => exact hempty _ nofun
    | finish => exact hempty _ nofun

/-- Escaped text has no angle brackets and no double quotes. -/
private theorem not_mem_escape {c : Char} (hc : c = '<' ∨ c = '>' ∨ c = '"') : c ∉ escape t := by
  intro hmem
  obtain ⟨hopening, hclosing, hquote⟩ := mem_escape hmem
  rcases hc with rfl | rfl | rfl <;> contradiction

private theorem splitBy_append_of_forall {p : Char → Bool} (h : ∀ c ∈ u, p c = false) {run : Text}
    {parts : List Text} (hsplit : splitBy p markup = run :: parts) :
    splitBy p (u ++ markup) = (u ++ run) :: parts := by
  induction u with
  | nil => exact hsplit
  | cons c cs ih =>
    have hrest := ih fun d hd => h d (List.mem_cons_of_mem c hd)
    simp [splitBy, h c (by simp), hrest]

private theorem readRun?_escape_append (t run : Text) :
    readRun? (escape t ++ run) = (readRun? run).map (t ++ ·) := by
  have hclosing : '>' ∉ escape t := not_mem_escape (by decide)
  have hquote : '"' ∉ escape t := not_mem_escape (by decide)
  simp only [readRun?, List.mem_append, hclosing, hquote, false_or, decodeReferences_escape_append]
  split_ifs <;> rfl

/-- Escaped text in front of markup is read as the text that was escaped. -/
theorem read?_escape_append (t markup : Text) :
    read? (escape t ++ markup) = (read? markup).map (joinText t) := by
  obtain ⟨run, parts, hsplit⟩ :=
    List.exists_cons_of_ne_nil (splitBy_ne_nil (p := (· == '<')) markup)
  have hescape : ∀ c ∈ escape t, (c == '<') = false := fun c hc =>
    beq_eq_false_iff_ne.mpr (mem_escape hc).1
  rw [read?, read?, splitBy_append_of_forall hescape hsplit, hsplit]
  simp only [readRun?_escape_append]
  cases readRun? run with
  | none => rfl
  | some u =>
    cases readParts? parts with
    | none => rfl
    | some tokens => simp [joinText_joinText]

end Text

/-! ### Tags -/

section Tags

variable {inside markup : Text}

/-- What stands between angle brackets in front of markup is read as a tag. -/
theorem read?_tag_append (hopening : '<' ∉ inside) (hclosing : '>' ∉ inside) {tag : Token}
    (htag : readTag? inside = some tag) (hjoin : ∀ rest, joinText [] (tag :: rest) = tag :: rest)
    (markup : Text) :
    read? ('<' :: inside ++ '>' :: markup) = (read? markup).map (tag :: ·) := by
  obtain ⟨run, parts, hsplit⟩ :=
    List.exists_cons_of_ne_nil (splitBy_ne_nil (p := (· == '<')) markup)
  have hbehind : ∀ c ∈ inside ++ ['>'], (c == '<') = false := by
    intro c hc
    refine beq_eq_false_iff_ne.mpr ?_
    rintro rfl
    simp [hopening] at hc
  -- splitting at `<` cuts the tag off together with the run of text behind it
  have hall : splitBy (· == '<') ('<' :: inside ++ '>' :: markup) =
      [] :: (inside ++ '>' :: run) :: parts := by
    have hrest := splitBy_append_of_forall hbehind hsplit
    rw [List.append_assoc, List.append_assoc, List.singleton_append] at hrest
    exact (splitBy_append (by decide) [] _).trans (congrArg ([[]] ++ ·) hrest)
  have hnil : readRun? [] = some [] := by
    simp [readRun?, decodeReferences_of_not_mem]
  rw [read?, read?, hall, hsplit]
  simp only [hnil, readParts?, tagRest?_append hclosing, htag, Option.bind_eq_bind,
    Option.bind_some]
  cases readRun? run with
  | none => rfl
  | some t =>
    cases readParts? parts with
    | none => rfl
    | some tokens => exact congrArg some (hjoin _)

/-- A letter of a name is none of the characters that set the parts of a tag apart. -/
private theorem ne_of_isNameLetter {c : Char} (h : isNameLetter c = true) :
    c ≠ '<' ∧ c ≠ '>' ∧ c ≠ '"' ∧ c ≠ '/' := by
  refine ⟨?_, ?_, ?_, ?_⟩ <;> rintro rfl <;> revert h <;> decide

private theorem attributeName?_written {name : String}
    (h : ∀ c ∈ name.toList, isNameLetter c = true) :
    attributeName? (' ' :: name.toList ++ ['=']) = some name := by
  have hall : name.toList.all isNameLetter = true := List.all_eq_true.mpr h
  simp [attributeName?, hall, String.ofList_toList]

/-- Attributes are read back. -/
theorem readAttributes?_written {attributes : List (String × Text)}
    (h : ∀ a ∈ attributes, ∀ c ∈ a.1.toList, isNameLetter c = true) {last : Text}
    (hlast : '"' ∉ last) :
    readAttributes? (splitBy (· == '"') (writtenAttributes attributes ++ last)) =
      some (attributes, last) := by
  have whole : ∀ {t : Text}, '"' ∉ t → splitBy (· == '"') t = [t] := fun ht =>
    splitBy_of_forall fun c hc => beq_eq_false_iff_ne.mpr (ne_of_mem_of_not_mem hc ht)
  induction attributes with
  | nil =>
    rw [writtenAttributes, List.flatMap_nil, List.nil_append, whole hlast]
    rfl
  | cons a rest ih =>
    obtain ⟨name, value⟩ := a
    have hname := h (name, value) List.mem_cons_self
    have hrest := ih fun b hb => h b (List.mem_cons_of_mem _ hb)
    have hquote : '"' ∉ ' ' :: name.toList ++ ['='] := by
      intro hmem
      have hmem : '"' ∈ name.toList := by simpa using hmem
      exact (ne_of_isNameLetter (hname _ hmem)).2.2.1 rfl
    -- the quotes of the first attribute cut the text in three
    have hcut : writtenAttributes ((name, value) :: rest) ++ last =
        (' ' :: name.toList ++ ['=']) ++
          '"' :: (escape value ++ '"' :: (writtenAttributes rest ++ last)) := by
      simp [writtenAttributes, writtenAttribute]
    have hsplit : splitBy (· == '"') (writtenAttributes ((name, value) :: rest) ++ last) =
        (' ' :: name.toList ++ ['=']) :: escape value ::
          splitBy (· == '"') (writtenAttributes rest ++ last) := by
      have cut := splitBy_append (p := (· == '"')) (c := '"') rfl
      rw [hcut, cut, cut, whole hquote, whole (not_mem_escape (by decide))]
      rfl
    rw [hsplit, readAttributes?, attributeName?_written hname, hrest, decodeReferences_escape]
    rfl

private theorem readTag?_finish {tag : String} (h : ∀ c ∈ tag.toList, isNameLetter c = true) :
    readTag? ('/' :: tag.toList) = some (.finish tag) := by
  have hall : tag.toList.all isNameLetter = true := List.all_eq_true.mpr h
  rw [readTag?, if_pos hall, String.ofList_toList]

/-- A start tag is read back. -/
theorem readTag?_insideStart {tag : String} {attributes : List (String × Text)}
    (h : (Token.start tag attributes).IsNamed) :
    readTag? (insideStart tag attributes) = some (.start tag attributes) := by
  obtain ⟨htag, hattributes⟩ := h
  set last : Text := if isVoid tag then ['/'] else [] with hlast
  have hquote : '"' ∉ last := by rw [hlast]; split <;> simp
  -- behind the name comes a space, a slash, or nothing
  have hstop : ∀ c ∈ (writtenAttributes attributes ++ last).head?, isNameLetter c = false := by
    intro c hc
    cases attributes with
    | nil =>
      obtain rfl : c = '/' := by
        rw [hlast] at hc
        split at hc
        · simpa [writtenAttributes, eq_comm] using hc
        · simp [writtenAttributes] at hc
      decide
    | cons a rest =>
      obtain rfl : c = ' ' := by simpa [writtenAttributes, writtenAttribute, eq_comm] using hc
      decide
  have hinside : insideStart tag attributes =
      tag.toList ++ (writtenAttributes attributes ++ last) := by
    rw [insideStart, List.append_assoc]
  have hname : (insideStart tag attributes).takeWhile isNameLetter = tag.toList ∧
      (insideStart tag attributes).dropWhile isNameLetter =
        writtenAttributes attributes ++ last := by
    rw [hinside, List.takeWhile_append_of_pos htag, List.dropWhile_append_of_pos htag]
    cases hrest : writtenAttributes attributes ++ last with
    | nil => simp
    | cons c cs => simp [hstop c (by simp [hrest])]
  have hslash : ∀ rest, insideStart tag attributes ≠ '/' :: rest := by
    intro rest he
    cases hletters : tag.toList with
    | cons c cs =>
      obtain ⟨rfl, -⟩ : c = '/' ∧ _ := by simpa [hinside, hletters] using he
      exact (ne_of_isNameLetter (htag '/' (by simp [hletters]))).2.2.2 rfl
    | nil =>
      obtain rfl : tag = "" := String.toList_eq_nil_iff.mp hletters
      have hclosed : isVoid "" = false := by decide
      cases attributes with
      | nil => simp [insideStart, writtenAttributes, hclosed] at he
      | cons a rest => simp [insideStart, writtenAttributes, writtenAttribute] at he
  unfold readTag?
  split
  · next name he => exact absurd he (hslash name)
  · rw [hname.1, hname.2, readAttributes?_written hattributes hquote, String.ofList_toList]
    exact if_pos rfl

private theorem angle_not_mem_of_isNameLetter {name : Text}
    (h : ∀ c ∈ name, isNameLetter c = true) {c : Char} (hc : c = '<' ∨ c = '>') : c ∉ name := by
  intro hmem
  obtain ⟨hopening, hclosing, -⟩ := ne_of_isNameLetter (h c hmem)
  exact hc.elim hopening hclosing

private theorem angle_not_mem_insideStart {tag : String} {attributes : List (String × Text)}
    (h : (Token.start tag attributes).IsNamed) {c : Char} (hc : c = '<' ∨ c = '>') :
    c ∉ insideStart tag attributes := by
  have hattributes : c ∉ writtenAttributes attributes := by
    intro hmem
    obtain ⟨a, ha, hmem⟩ := List.mem_flatMap.mp hmem
    exact not_mem_writtenAttribute (angle_not_mem_of_isNameLetter (h.2 a ha) hc) hc hmem
  have hslash : c ≠ '/' := by rcases hc with rfl | rfl <;> decide
  rw [insideStart, List.append_assoc, List.mem_append, List.mem_append]
  rintro (hmem | hmem | hmem)
  · exact angle_not_mem_of_isNameLetter h.1 hc hmem
  · exact hattributes hmem
  · split at hmem <;> simp [hslash] at hmem

end Tags

/-! ### Markup -/

/-- **Markup is read back.** Written tokens whose names are made of the letters of names are read as
they are, with texts that meet made one. -/
theorem read?_written {tokens : List Token} (h : ∀ token ∈ tokens, token.IsNamed) :
    read? (tokens.flatMap Token.written) = some (joined tokens) := by
  induction tokens with
  | nil =>
    simp [read?, splitBy, readRun?, readParts?, joined, joinText, decodeReferences_of_not_mem]
  | cons token rest ih =>
    have hnamed := h token List.mem_cons_self
    have hrest := ih fun other hother => h other (List.mem_cons_of_mem _ hother)
    rw [List.flatMap_cons]
    cases token with
    | text t =>
      rw [Token.written, read?_escape_append, hrest]
      rfl
    | finish tag =>
      have hangle : ∀ {c}, c = '<' ∨ c = '>' → c ∉ '/' :: tag.toList := by
        intro c hc hmem
        rcases List.mem_cons.mp hmem with rfl | hmem
        · exact absurd hc (by decide)
        · exact angle_not_mem_of_isNameLetter hnamed hc hmem
      have htag := read?_tag_append (hangle (.inl rfl)) (hangle (.inr rfl)) (readTag?_finish hnamed)
        (fun _ => rfl) (rest.flatMap Token.written)
      rw [hrest] at htag
      rw [Token.written, List.append_assoc, List.singleton_append]
      exact htag
    | start tag attributes =>
      have htag := read?_tag_append (angle_not_mem_insideStart hnamed (.inl rfl))
        (angle_not_mem_insideStart hnamed (.inr rfl)) (readTag?_insideStart hnamed) (fun _ => rfl)
        (rest.flatMap Token.written)
      rw [hrest] at htag
      rw [Token.written, List.append_assoc, List.singleton_append]
      exact htag

/-! ### Tags of elements -/

/-- The text that the attribute of a property gives to whoever reads it. -/
def attributeValue (name : String) (value : Value) : Text :=
  if name = "style" then renderStyle value
  else
    match value with
    | .bool _ => []
    | v => v.display

/-- The attribute of a property, if it has one. A style that sets nothing has none. -/
def attribute? (property : String) (value : Value) : Option (String × Text) :=
  if reservedProperties.contains property || innerProperties.contains property ||
      !isWritten value then none
  else
    let name := attributeName property
    let text := attributeValue name value
    if name = "style" ∧ text = [] then none else some (name, text)

/-- The attributes of properties, in order. -/
def attributesOf (props : Mapping) : List (String × Text) :=
  props.filterMap fun entry => entry.1.text?.bind fun property => attribute? property entry.2

private theorem renderAttribute_eq {name : String} {value : Value} (hname : name ≠ "style")
    (hwritten : isWritten value = true) :
    renderAttribute name value = writtenAttribute name.toList (attributeValue name value) := by
  unfold attributeValue
  rw [if_neg hname]
  cases value with
  | bool b =>
    obtain rfl : b = true := hwritten
    change ' ' :: name.toList ++ ['=', '"'] ++ ['"'] = _
    simp [writtenAttribute]
  | _ => rfl

private theorem renderProperty_eq_attribute? (property : String) (value : Value) :
    renderProperty property value = writtenAttributes (attribute? property value).toList := by
  unfold renderProperty attribute?
  cases hreserved : reservedProperties.contains property || innerProperties.contains property with
  | true => rfl
  | false =>
    cases hwritten : isWritten value with
    | false => rfl
    | true =>
      simp only [Bool.false_eq_true, if_false, Bool.not_true, Bool.or_false]
      by_cases hstyle : attributeName property = "style"
      · simp only [hstyle, attributeValue, if_true, true_and, List.isEmpty_iff]
        split
        · rfl
        · simp [renderAttribute, escapeAttribute, writtenAttributes, writtenAttribute]
      · rw [if_neg hstyle, if_neg (mt And.left hstyle)]
        simp [renderAttribute_eq hstyle hwritten, writtenAttributes]

private theorem eq_of_renderAttributes {props : Mapping} {t : Text}
    (h : renderAttributes props = .ok t) :
    t = writtenAttributes (attributesOf props) := by
  induction props generalizing t with
  | nil => exact (Except.ok.inj h).symm
  | cons entry rest ih =>
    obtain ⟨key, value⟩ := entry
    rw [renderAttributes] at h
    cases hkey : key.text? with
    | some property =>
      rw [hkey] at h
      cases hrest : renderAttributes rest with
      | error failure =>
        rw [hrest] at h
        cases h
      | ok u =>
        rw [hrest] at h
        obtain rfl := Except.ok.inj h
        rw [ih hrest, renderProperty_eq_attribute?]
        cases ha : attribute? property value <;> simp [attributesOf, writtenAttributes, hkey, ha]
    | none =>
      rw [hkey] at h
      dsimp only at h
      split at h
      · cases h
      · rw [ih h]
        simp [attributesOf, hkey]

/-- **Start tags.** The start tag of an element is that of its name and of the attributes that its
properties have. -/
theorem eq_of_startTag {tag : String} {props : Mapping} {t : Text}
    (h : startTag tag props = .ok t) :
    t = (Token.start tag (attributesOf props)).written := by
  unfold startTag at h
  cases hattributes : renderAttributes props with
  | error failure =>
    rw [hattributes] at h
    cases h
  | ok u =>
    rw [hattributes] at h
    obtain rfl := Except.ok.inj h
    rw [eq_of_renderAttributes hattributes, Token.written, insideStart]
    split <;> simp

/-- The end tag of an element that has one. -/
theorem endTag_eq_written {tag : String} (h : isVoid tag = false) :
    endTag tag = (Token.finish tag).written := by
  simp [endTag, h, Token.written]

/-- A property that names an attribute by the letters of names, and not the markup inside an
element. -/
def IsPlainProperty (property : String) : Prop :=
  property ∉ innerProperties ∧ ∀ c ∈ (attributeName property).toList, isNameLetter c = true

instance : DecidablePred IsPlainProperty := fun property =>
  inferInstanceAs
    (Decidable (property ∉ innerProperties ∧
      ∀ c ∈ (attributeName property).toList, isNameLetter c = true))

/-- Properties all of whose names are plain. -/
def ArePlain (props : Mapping) : Prop := ∀ entry ∈ props, ∀ p ∈ entry.1.text?, IsPlainProperty p

instance : DecidablePred ArePlain := fun props =>
  inferInstanceAs (Decidable (∀ entry ∈ props, ∀ p ∈ entry.1.text?, IsPlainProperty p))

/-- Plain properties have attributes whose names are made of the letters of names. -/
theorem ArePlain.isNamed {props : Mapping} (h : ArePlain props) {tag : String}
    (htag : ∀ c ∈ tag.toList, isNameLetter c = true) :
    (Token.start tag (attributesOf props)).IsNamed := by
  refine ⟨htag, fun a ha => ?_⟩
  obtain ⟨entry, hentry, hsome⟩ := List.mem_filterMap.mp ha
  obtain ⟨property, hproperty, hattribute⟩ := Option.bind_eq_some_iff.mp hsome
  have hname : attributeName property = a.1 := by
    unfold attribute? at hattribute
    dsimp only at hattribute
    split_ifs at hattribute
    exact congrArg Prod.fst (Option.some.inj hattribute)
  rw [← hname]
  exact (h entry hentry property hproperty).2

/-- Plain properties do not set the markup inside an element. -/
theorem ArePlain.innerMarkup? {props : Mapping} (h : ArePlain props) :
    innerMarkup? props = none := by
  refine List.findSome?_eq_none_iff.mpr fun property hproperty => ?_
  cases hat : props.at? property with
  | none => rfl
  | some v =>
    obtain ⟨key, hmem, hkey⟩ := Mapping.exists_mem_of_at? hat
    exact absurd hproperty (h (key, v) hmem property hkey).1

end Stencil.Markup
