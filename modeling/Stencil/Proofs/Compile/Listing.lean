import Stencil.Proofs.Compile.Passages
import Stencil.Proofs.Path

/-!
# Spellings of the path of an array

A `listing` is a component with a loop over the array at a path, whose render function prints a passage of
the item. The path may be spelled in many ways. They all lead to the same array, so that the body of the loop
is rendered alike, with the tokens of the leaves of the item that stands for all items.

The references to these leaves begin with the one spelling that marking uses (`pathTo`), while the item is
named where the spelling of the loop stands. So the main statement is `template_listing`: **the leaves are
named in the item exactly if the loop spells the path as marking does; otherwise every reference is left to
the item that stands for all items.**
-/

namespace Stencil.Compile

open Text Markup Template Component Render Marker

/-! ### Spellings -/

section Spelling

variable {q : String} {way : Path} (hread : Path.read q.toList = .ok way) (hkeys : PlainKeys way)

include hread

private theorem segment_mem {f : Text} (hf : f ∈ Path.fields q.toList) : Path.segment f ∈ way := by
  obtain ⟨-, rfl⟩ := Path.read_eq_ok_iff.mp hread
  exact List.mem_map_of_mem hf

include hkeys

/-- A part of a spelling is a position, or a key. -/
private theorem field_cases {f : Text} (hf : f ∈ Path.fields q.toList) :
    (∀ c ∈ f, isDigit c = true) ∨ IsIdentifier f ∧ ¬ markerLead <:+: f := by
  have hmem := segment_mem hread hf
  rw [Path.segment] at hmem
  split at hmem
  · next hdigits => exact .inl (List.all_eq_true.mp hdigits)
  · have hkey := hkeys _ hmem
    rw [String.toList_ofList] at hkey
    exact .inr hkey

/-- A spelling is made of identifiers, digits and separators. -/
theorem mem_spelling {c : Char} (h : c ∈ q.toList) :
    Path.isSeparator c = true ∨ isDigit c = true ∨ isIdentifierChar c = true := by
  refine (Path.mem_fields h).imp id fun ⟨f, hf, hc⟩ => ?_
  rcases field_cases hread hkeys hf with hdigits | ⟨hname, -⟩
  · exact .inl (hdigits c hc)
  · exact .inr (hname.isIdentifierChar_of_mem c hc)

theorem not_mem_spelling {c : Char} (hseparator : Path.isSeparator c = false) (hdigit : isDigit c = false)
    (hname : isIdentifierChar c = false) : c ∉ q.toList := fun hmem => by
  rcases mem_spelling hread hkeys hmem with h | h | h
  · exact absurd h (by simp [hseparator])
  · exact absurd h (by simp [hdigit])
  · exact absurd h (by simp [hname])

/-- No marker begins in a spelling. -/
theorem unmarked_spelling : ¬ markerLead <:+: q.toList := by
  intro h
  obtain ⟨f, hf, hlead⟩ := Path.exists_field_of_infix (by decide) (by decide) h
  rcases field_cases hread hkeys hf with hdigits | ⟨-, hunmarked⟩
  · exact absurd (hdigits '_' (hlead.subset (by decide))) (by decide)
  · exact hunmarked hlead

/-- A spelling of a path that begins with a key does not begin with a digit. -/
theorem head_spelling {name : String} {rest : Path} (hway : way = .key name :: rest) {c : Char}
    (hc : isDigit c = true) (hseparator : Path.isSeparator c = false) : q.toList.head? ≠ some c := by
  intro hhead
  obtain ⟨t, ht⟩ : ∃ t, q.toList = c :: t := List.head?_eq_some_iff.mp hhead
  obtain ⟨w, parts, hfields⟩ := Path.exists_fields_cons hseparator t
  obtain ⟨-, hparse⟩ := Path.read_eq_ok_iff.mp hread
  rw [Path.parse, ht, hfields, List.map_cons, hway] at hparse
  have hsegment : Path.segment (c :: w) = .key name := (List.cons.inj hparse).1.symm
  rw [Path.segment] at hsegment
  split at hsegment
  · cases hsegment
  · obtain rfl : String.ofList (c :: w) = name := Segment.key.inj hsegment
    have hname := (hkeys _ (hway ▸ List.mem_cons_self)).1
    rw [String.toList_ofList] at hname
    rw [hname.isDigit_head c rfl] at hc
    cases hc

end Spelling

/-! ### Naming the item in a path -/

section Naming

variable {word name : Text}

private theorem startsPath_of_isWord {c : Char} (h : isWord c = true) : startsPath (some c) = false := by
  rw [startsPath, h, Bool.true_or, Bool.true_or, Bool.not_true]

/-- In characters of words no path starts, if none does before them. -/
private theorem replaceStarts_append_words {u v : Text} (hu : ∀ c ∈ u, isWord c = true)
    (hv : ∀ {previous}, startsPath previous = false → replaceStarts word name previous 0 v = v)
    {previous : Option Char} (hprevious : startsPath previous = false) :
    replaceStarts word name previous 0 (u ++ v) = u ++ v := by
  induction u generalizing previous with
  | nil => exact hv hprevious
  | cons c u ih =>
    rw [List.cons_append, replaceStarts_cons (by simp [hprevious]),
      ih (fun d hd => hu d (List.mem_cons_of_mem c hd)) (startsPath_of_isWord (hu c List.mem_cons_self))]

/-- Inside the steps of a way no path starts that begins with a key. -/
private theorem replaceStarts_stepsText {p : Path}
    (hkeys : ∀ key, .key key ∈ p → ∀ c ∈ key.toList, isWord c = true) (hne : word ≠ [])
    (hword : word.head? ≠ some '0') {previous : Option Char} (hprevious : startsPath previous = false) :
    replaceStarts word name previous 0 (stepsText p) = stepsText p := by
  induction p generalizing previous with
  | nil => rfl
  | cons s p ih =>
    have hrest : ∀ key, .key key ∈ p → ∀ c ∈ key.toList, isWord c = true := fun key hmem =>
      hkeys key (List.mem_cons_of_mem _ hmem)
    cases s with
    | key key =>
      rw [stepsText, replaceStarts_cons (by simp [hprevious]),
        replaceStarts_append_words (hkeys key List.mem_cons_self) (ih hrest) (by decide)]
    | index i =>
      -- a path could start behind the bracket only, with the digit
      have hzero : ¬ word <+: '0' :: ']' :: stepsText p := by
        intro hprefix
        cases word with
        | nil => exact hne rfl
        | cons c cs =>
          obtain ⟨rfl, -⟩ := List.cons_prefix_cons.mp hprefix
          exact hword rfl
      rw [stepsText, replaceStarts_cons (by simp [hprevious]), replaceStarts_cons (by simp [startsPath]),
        replaceStarts_cons fun _ => hzero,
        replaceStarts_cons (by simp [startsPath_of_isWord (c := '0') (by decide)]), ih hrest (by decide)]

variable {q : String} {way r : Path} (hread : Path.read q.toList = .ok way)
  (hkeys : PlainKeys (way ++ .index 0 :: r))

include hread hkeys

/-- Another spelling than that of marking does not begin the path of a leaf. -/
private theorem representative_not_prefix (hfirst : IsFirst way) (hne : q ≠ pathTo "" way) (v : Text) :
    ¬ Template.representative q.toList <+: Template.representative (pathTo "" way).toList ++ v := by
  have hkey : ∀ name, .key name ∈ way → Path.IsKey name := fun name hmem => by
    have hname := (hkeys name (List.mem_append_left _ hmem)).1
    exact ⟨hname.isSeparator_of_mem, hname.all_isDigit⟩
  have hlength : (Path.fields q.toList).length = (Path.fields (pathTo "" way).toList).length := by
    obtain ⟨-, hparse⟩ := Path.read_eq_ok_iff.mp hread
    obtain ⟨-, hparse'⟩ := Path.read_eq_ok_iff.mp
      (read_pathTo_of_isKey hkey hfirst (show Path.read "".toList = .ok [] from rfl))
    rw [List.nil_append] at hparse'
    have hboth := congrArg List.length (hparse.symm.trans hparse')
    rwa [Path.parse, Path.parse, List.length_map, List.length_map] at hboth
  intro hprefix
  rcases List.prefix_or_prefix_of_prefix hprefix (List.prefix_append _ v) with h | h
  · exact hne (String.toList_injective (Path.eq_of_item_prefix hlength h))
  · exact hne (String.toList_injective (Path.eq_of_item_prefix hlength.symm h)).symm

variable {key : String} {rest : Path} (hway : way = .key key :: rest)

include hway

private theorem representative_head : Template.representative q.toList ≠ [] ∧
    (Template.representative q.toList).head? ≠ some '0' := by
  have hown : PlainKeys way := fun name hmem => hkeys name (List.mem_append_left _ hmem)
  have hhead := head_spelling hread hown hway (c := '0') (by decide) (by decide)
  refine ⟨by simp [Template.representative], ?_⟩
  cases hq : q.toList with
  | nil => simp [Template.representative]
  | cons c t =>
    rw [hq] at hhead
    simpa [Template.representative] using hhead

variable (hfirst : IsFirst way)
  (hwords : ∀ key, .key key ∈ way ++ .index 0 :: r → ∀ c ∈ key.toList, isWord c = true)

include hfirst hwords

/-- **Naming a leaf.** The path of a leaf of the item that stands for all items is named exactly if the loop
spells the path of its array as marking does. -/
theorem nameItem_pathTo : nameItem q.toList name (pathTo "" (way ++ .index 0 :: r)).toList =
    (if q = pathTo "" way then name else Template.representative (pathTo "" way).toList) ++
      stepsText r := by
  obtain ⟨hne, hzero⟩ := representative_head hread hkeys hway
  have hname : IsIdentifier key.toList := (hkeys key (by simp [hway])).1
  have hroot : (pathTo "" (way ++ .index 0 :: r)).toList = key.toList ++ stepsText (rest ++ .index 0 :: r) := by
    rw [hway, List.cons_append, toList_pathTo_root hname.ne_nil]
  have hitem : (pathTo "" (way ++ .index 0 :: r)).toList =
      Template.representative (pathTo "" way).toList ++ stepsText r := by
    have hbase : (pathTo "" way).toList ≠ [] := by
      rw [hway, toList_pathTo_root hname.ne_nil]
      exact List.append_ne_nil_of_left_ne_nil hname.ne_nil _
    have hlit : ".[0]".toList = ['.', '[', '0', ']'] := by decide
    rw [pathTo_append, toList_pathTo hbase, stepsText, Template.representative, hlit]
    simp
  by_cases hsame : q = pathTo "" way
  · have hlast : (Template.representative q.toList).getLast? = some ']' := by
      simp [Template.representative]
    have hsteps : ∀ key, .key key ∈ r → ∀ c ∈ key.toList, isWord c = true := fun key hmem =>
      hwords key (List.mem_append_right _ (List.mem_cons_of_mem _ hmem))
    rw [if_pos hsame, hitem, nameItem, ← hsame, replaceStarts_append_word rfl hne, hlast,
      replaceStarts_stepsText hsteps hne hzero (by decide)]
  · have habsent := representative_not_prefix hread hkeys hfirst hsame (stepsText r)
    have hsteps : ∀ key, .key key ∈ rest ++ .index 0 :: r → ∀ c ∈ key.toList, isWord c = true := by
      intro key hmem
      rw [hway] at hwords
      exact hwords key (List.mem_cons_of_mem _ hmem)
    have hkey : ∀ c ∈ key.toList, isWord c = true := hwords key (by simp [hway])
    rw [if_neg hsame, ← hitem, nameItem]
    rw [← hitem, hroot] at habsent
    rw [hroot]
    -- behind its first character no path starts in the path of the leaf
    cases hcs : key.toList with
    | nil => exact absurd hcs hname.ne_nil
    | cons c cs =>
      rw [hcs, List.cons_append] at habsent
      rw [hcs] at hkey
      rw [List.cons_append, replaceStarts_cons fun _ => habsent]
      exact congrArg (c :: ·) (replaceStarts_append_words
        (fun d hd => hkey d (List.mem_cons_of_mem c hd)) (replaceStarts_stepsText hsteps hne hzero)
        (startsPath_of_isWord (hkey c List.mem_cons_self)))

end Naming

/-! ### The component -/

/-- The component of a loop over the array at a path, whose render function prints a passage of the item. -/
def listing (q : String) (p : Passage) : Value :=
  .closure "Listing" []
    (.provider (.ref "props" [])
      [.each (.str q) [.closure "<lambda>" (.list (p.bodies "item")) .null []] .null]) []

/-- The block over the array at a path around a passage, whose leaves are parts of what a word stands for. -/
def listingTemplate (q word : Text) (p : Passage) : Text :=
  "\x7b\x7b#each ".toList ++ q ++ "\x7d\x7d".toList ++
    spelledOut (fun r => braced (word ++ stepsText r)) p.glyphs ++ "\x7b\x7b/each\x7d\x7d".toList

section Listing

variable {q : String} {way : Path} (hread : Path.read q.toList = .ok way) (hkeys : PlainKeys way)

include hread hkeys

/-- A spelling as the path of an array. -/
theorem exists_arrayPath (hne : way ≠ []) : ∃ array : ArrayPath, array.name = q := by
  have hangle : '<' ∉ q.toList := not_mem_spelling hread hkeys (by decide) (by decide) (by decide)
  refine ⟨⟨⟨q, hangle⟩, fun hnil => ?_⟩, rfl⟩
  rw [show q.toList = [] from hnil] at hread
  cases hread
  exact hne rfl

/-- The glyphs of a listing, with the tags of the loop around those of the passage. -/
private def loopGlyphs (q : String) (p : Passage) : List Glyph :=
  plainGlyphs ("<hb-each array=".toList ++ '"' :: (q.toList ++ ['"'])) ++
    .char '>' :: (p.glyphs ++ .char '<' :: plainGlyphs "/hb-each>".toList)

private theorem tag_listing {array : ArrayPath} (harray : array.name = q) :
    (Tree.head none array none).tag = "<hb-each array=".toList ++ '"' :: (q.toList ++ ['"', '>']) := by
  have hplain : escape q.toList = q.toList := by
    have hall : ∀ x ∈ ['&', '<', '>', '"', '\''],
        Path.isSeparator x = false ∧ isDigit x = false ∧ isIdentifierChar x = false := by decide
    refine escape_of_not_mem fun x hx => ?_
    obtain ⟨hseparator, hdigit, hname⟩ := hall x hx
    exact not_mem_spelling hread hkeys hseparator hdigit hname
  have hname : "array".toList = ['a', 'r', 'r', 'a', 'y'] := by decide
  have hlit : "<hb-each array=".toList = ['<', 'h', 'b', '-', 'e', 'a', 'c', 'h', ' ', 'a', 'r', 'r', 'a',
      'y', '='] := by decide
  have hhead : (Tree.head none array none).array = q.toList := by
    rw [← harray]
    rfl
  have hnone : (Tree.head none array none).itemVar = none := rfl
  rw [LoopHead.tag, LoopHead.attributes, hhead, hnone, eachOpening_eq, hname, hlit, writtenAttribute, hplain]
  simp

/-- Every spelling of the glyphs is the text of a loop around an outline of the passage. -/
private theorem exists_loop_outline {array : ArrayPath} (harray : array.name = q) (shown : Path → Text)
    {p : Passage} (hshown : ∀ r ∈ p.ways, '<' ∉ shown r) :
    ∃ inside : Outline, inside.written = spelledOut shown p.glyphs ∧
      (Outline.loop (Tree.head none array none) inside .done).written = spelledOut shown (loopGlyphs q p) ∧
      (Outline.loop (Tree.head none array none) inside .done).template =
        loopOpening q.toList none ++ nameItem q.toList "this".toList (spelledOut shown p.glyphs) ++
          braced "/each".toList ∧
      (Outline.loop (Tree.head none array none) inside .done).Steady := by
  obtain ⟨inside, hwritten, htemplate, hloops⟩ := Passage.exists_outline hshown
  have hclosing : eachClosing = '<' :: "/hb-each>".toList := by decide
  refine ⟨inside, hwritten, ?_, ?_, .inr ⟨nofun, hloops _, trivial⟩⟩
  · rw [Outline.written, Outline.written, tag_listing hread hkeys harray, hwritten, hclosing, loopGlyphs]
    simp
  · rw [Outline.template, Outline.template, htemplate, LoopHead.block, ← harray, List.append_nil]
    rfl

/-- The glyphs of a listing are separated, no marker begins in their constants, and they have no attribute of
the host. -/
private theorem loopGlyphs_clear {p : Passage} (hp : p.IsClear markerLead) :
    Separated (loopGlyphs q p) ∧ ¬ markerLead <:+: constants (loopGlyphs q p) ∧
      ∀ {shown : Path → Text}, (∀ r ∈ p.ways, '"' ∉ shown r) →
        ¬ hostAttribute <:+: spelledOut shown (loopGlyphs q p) := by
  have hequals : '=' ∉ q.toList := not_mem_spelling hread hkeys (by decide) (by decide) (by decide)
  have hquote : '"' ∉ q.toList := not_mem_spelling hread hkeys (by decide) (by decide) (by decide)
  have hspelled : ∀ {shown : Path → Text}, spelledOut shown (loopGlyphs q p) =
      "<hb-each array=".toList ++ '"' :: (q.toList ++ '"' :: ([] ++ '>' :: (spelledOut shown p.glyphs ++ '<' ::
        "/hb-each>".toList))) := by
    intro shown
    simp [loopGlyphs]
  refine ⟨?_, ?_, fun {shown} hshown h => ?_⟩
  · exact (separated_plainGlyphs _).append_cons (by decide)
      (hp.separated.append_cons (by decide) (separated_plainGlyphs _))
  · rw [constants, hspelled]
    exact not_infix_append_cons (by decide) (not_infix_append_cons (unmarked_spelling hread hkeys)
      (not_infix_append_cons (by decide) (not_infix_append_cons hp.unmarked (by decide) (by decide))
        (by decide)) (by decide)) (by decide)
  · rw [hspelled] at h
    have hrest : '"' ∉ [] ++ '>' :: (spelledOut shown p.glyphs ++ '<' :: "/hb-each>".toList) := by
      have hglyphs := Passage.quote_not_mem_spelledOut hshown
      have hclosing : '"' ∉ "/hb-each>".toList := by decide
      simp only [List.nil_append, List.mem_cons, List.mem_append, not_or]
      exact ⟨by decide, hglyphs, by decide, hclosing⟩
    exact hostAttribute_not_infix_tag (by decide) ⟨hquote, hequals⟩ hrest h

end Listing

/-! ### Rendering -/

/-- The render function prints the passage of an item whose leaves are tokens. -/
private theorem gives_listingBody (isBuilding : Bool) (depth : ℕ) (ctx : Context) (scope : Scope)
    {item : Value} {p : Passage} {path : Path → String}
    (hleaves : ∀ r ∈ p.ways, item.select r = .str (Shape.token {} (path r))) {inside : Outline}
    (hinside : inside.written = spelledOut (fun r => (Shape.token {} (path r)).toList) p.glyphs) :
    Gives (renderBody ⟨.markers, isBuilding⟩ (renderWithin ⟨.markers, isBuilding⟩ (depth + 1))
        (parts ⟨.markers, isBuilding⟩ (renderWithin ⟨.markers, isBuilding⟩ (depth + 1))
          [.closure "<lambda>" scope (.list (p.bodies "item")) []]) ctx item 0) ⟨[], inside⟩ := by
  have heval : ∀ session, Body.eval isBuilding (("item", item) :: ("index", .int 0) :: scope)
      (.list (p.bodies "item")) session = .ok (.list (p.values item.select), session) := by
    intro session
    rw [Body.eval, Passage.evalAll_bodies]
    rfl
  have hscalars : ∀ r ∈ p.ways, IsScalar (item.select r) := fun r hr => by
    rw [hleaves r hr]
    trivial
  have hprinted := Passage.isPrinted_values ⟨.markers, isBuilding⟩
    (renderWithin ⟨.markers, isBuilding⟩ depth) hscalars
  rw [spelledOut_printed hleaves, ← hinside] at hprinted
  refine gives_renderBody_closure heval ?_
  rw [renderWithin]
  simp only [renderNode]
  rw [hprinted.all]
  exact Yields.pure _

/-- **Rendering.** Where the way of the path leads to a list of one item whose leaves are tokens, the
component is rendered as a loop around the tokens. -/
theorem gives_listing (isBuilding : Bool) (markers : Option Registry) {props : List (String × Value)}
    {q : String} {way : Path} (hread : Path.read q.toList = .ok way) {array : ArrayPath}
    (harray : array.name = q) {item : Value} (hway : WayTo (.map (named props)) way (.list [item]))
    {p : Passage} {path : Path → String}
    (hleaves : ∀ r ∈ p.ways, WayTo item r (.str (Shape.token {} (path r)))) {inside : Outline}
    (hinside : inside.written = spelledOut (fun r => (Shape.token {} (path r)).toList) p.glyphs) {depth : ℕ}
    (hdepth : 1 < depth) :
    Gives (renderComponent ⟨.markers, isBuilding⟩ depth { markers } (listing q p) (named props))
      ⟨[q.toList], .loop (Tree.head none array none) inside .done⟩ := by
  obtain ⟨depth, rfl⟩ : ∃ d, depth = d + 1 + 1 := ⟨depth - 2, by omega⟩
  subst harray
  set scope : Scope := ("props", .map (named props)) :: props ++ [] with hscope
  set render : Value := .closure "<lambda>" scope (.list (p.bodies "item")) [] with hrender
  have hcall : ∀ session, Component.call isBuilding (listing array.name p) (named props) session =
      .ok (Element.provider (.map (named props)) [Element.each (.str array.name) [render] .null], session) := by
    intro session
    rw [Component.call, arguments?_named]
    rfl
  unfold renderComponent
  refine Yields.bind (.of_ok hcall) ?_
  change Gives (renderNode _ (renderWithin _ (depth + 1)) (Element.provider _ _) _) _
  simp only [Element.provider, renderNode, renderAll]
  have heach : Gives (renderNode ⟨.markers, isBuilding⟩ (renderWithin ⟨.markers, isBuilding⟩ (depth + 1))
      (Element.each (.str array.name) [render] (Tree.itemVarValue none)) { data := .map (named props), markers })
      ⟨array.name.toList :: [], .loop (Tree.head none array none) inside .done⟩ := by
    rw [renderNode_each]
    refine gives_markersEach (.outside _) (d := ⟨[], inside⟩) fun {data first} hdata hfirst => ?_
    obtain rfl : Value.map (named props) = data := Except.ok.inj hdata
    -- the item of the loop is the one that the way leads to
    have hresolved : (Value.map (named props)).resolve array.name.toList = .list [item] := by
      obtain ⟨-, hparse⟩ := Path.read_eq_ok_iff.mp hread
      rw [Value.resolve, ← hparse]
      exact hway.follow_eq
    obtain rfl : first = item := by
      rw [hresolved] at hfirst
      exact hfirst
    exact gives_listingBody isBuilding depth _ scope (fun r hr => (hleaves r hr).select_eq) hinside
  have hall := heach.append (show Gives (pure []) .done from .pure [])
  rwa [Draft.append_done] at hall

/-! ### The template -/

theorem plainKeys_item {way r : Path} (hway : PlainKeys way) (hr : PlainKeys r) :
    PlainKeys (way ++ .index 0 :: r) := by
  intro name hmem
  rcases List.mem_append.mp hmem with hmem | hmem
  · exact hway name hmem
  · exact hr name ((List.mem_cons.mp hmem).resolve_left nofun)

theorem listingTemplate_eq (q word : Text) (p : Passage) : loopOpening q none ++
    spelledOut (fun r => braced (word ++ stepsText r)) p.glyphs ++ braced "/each".toList =
      listingTemplate q word p := by
  have hopening : "\x7b\x7b#each ".toList = '\x7b' :: '\x7b' :: "#each ".toList := by decide
  have hend : "\x7d\x7d".toList = ['\x7d', '\x7d'] := by decide
  have hclosing : "\x7b\x7b/each\x7d\x7d".toList = braced "/each".toList := by decide
  unfold listingTemplate loopOpening
  rw [hopening, hend, hclosing]
  generalize "#each ".toList = each
  generalize braced "/each".toList = closing
  simp [braced]

/-- A text is longer if what is shown of its leaves is. -/
private theorem length_spelledOut_lt {shown shown' : Path → Text} {glyphs : List Glyph}
    (h : ∀ r, (shown r).length < (shown' r).length) {r : Path} (hr : .leaf r ∈ glyphs) :
    (spelledOut shown glyphs).length < (spelledOut shown' glyphs).length := by
  have hle : ∀ ms : List Glyph, (spelledOut shown ms).length ≤ (spelledOut shown' ms).length := by
    intro ms
    induction ms with
    | nil => exact Nat.le_refl _
    | cons m ms ih =>
      cases m with
      | char c => simpa using ih
      | leaf own =>
        have hown := h own
        simp only [spelledOut_leaf, List.length_append]
        omega
  obtain ⟨before, after, rfl⟩ := List.append_of_mem hr
  have hbefore := hle before
  have hafter := hle after
  have hleaf := h r
  simp only [spelledOut_append, spelledOut_leaf, List.length_append]
  omega

/-- Listings with different words for the item are the same only if no leaf is printed. -/
private theorem listingTemplate_eq_iff {q word word' : Text} (hword : word.length < word'.length)
    (p : Passage) : listingTemplate q word' p = listingTemplate q word p ↔ ∀ r, .leaf r ∉ p.glyphs := by
  have hlength : ∀ r, (braced (word ++ stepsText r)).length < (braced (word' ++ stepsText r)).length := by
    intro r
    simp only [braced, List.length_append, List.length_cons, List.length_nil]
    omega
  unfold listingTemplate
  generalize "\x7b\x7b#each ".toList ++ q ++ "\x7d\x7d".toList = opening
  generalize "\x7b\x7b/each\x7d\x7d".toList = closing
  constructor
  · intro heq r hr
    have hlt := length_spelledOut_lt hlength hr
    have hsame := congrArg List.length heq
    simp only [List.length_append] at hsame
    omega
  · intro hnone
    have hsame : spelledOut (fun r => braced (word' ++ stepsText r)) p.glyphs =
        spelledOut (fun r => braced (word ++ stepsText r)) p.glyphs :=
      spelledOut_congr fun r hr => absurd hr (hnone r)
    rw [hsame]

/-- A loop over the array at a way, in any spelling, that prints a passage of the leaves that the items have.
The leaves stand apart, and the item cannot be named in the constants between them. -/
structure Lists (sample : List (String × Value)) (q : String) (way : Path) (p : Passage) : Prop where
  read : Path.read q.toList = .ok way
  leaves : ∃ array items, WayTo (.map (named sample)) way array ∧ array.items? = some items ∧
    ∀ r ∈ p.ways, ∃ leaf, WayTo (standIn items) r leaf ∧ isLeaf leaf = true
  keys : PlainKeys way ∧ ∀ r ∈ p.ways, PlainKeys r
  words : ∀ r ∈ p.ways, ∀ key, .key key ∈ way ++ .index 0 :: r → ∀ c ∈ key.toList, isWord c = true
  clear : p.IsClear markerLead
  bracket_not_mem : '[' ∉ constants p.glyphs

section Template

variable {sample : List (String × Value)} {q : String} {way : Path} {p : Passage} (h : Lists sample q way p)

include h

private theorem Lists.pathTo_ne_nil : (pathTo "" way).toList ≠ [] := by
  obtain ⟨array, items, hway, hitems, -⟩ := h.leaves
  obtain ⟨key, rest, hfirst⟩ := hway.exists_eq_key hitems
  have hname := (h.keys.1 key (hfirst ▸ List.mem_cons_self)).1.ne_nil
  rw [hfirst, toList_pathTo_root hname]
  exact List.append_ne_nil_of_left_ne_nil hname _

/-- In the loop the references to the leaves are named in the item if the path is spelled as marking does, and
left to the item that stands for all items if not. -/
private theorem Lists.loop_references : loopOpening q.toList none ++
    nameItem q.toList "this".toList
      (spelledOut (fun r => reference (pathTo "" (way ++ .index 0 :: r))) p.glyphs) ++
    braced "/each".toList =
      listingTemplate q.toList (if q = pathTo "" way then "this".toList
        else Template.representative (pathTo "" way).toList) p := by
  obtain ⟨array, items, hway, hitems, -⟩ := h.leaves
  obtain ⟨key, rest, hfirst⟩ := hway.exists_eq_key hitems
  have hbare : IsBare q.toList := by
    have hall : ∀ c ∈ tagChars, Path.isSeparator c = false ∧ isDigit c = false ∧
        isIdentifierChar c = false := by decide
    exact fun c hc => not_mem_spelling h.read h.keys.1 (hall c hc).1 (hall c hc).2.1 (hall c hc).2.2
  have hnamed := nameItem_spelledOut hbare "this".toList
    (fun r => (pathTo "" (way ++ .index 0 :: r)).toList) h.bracket_not_mem
  have hleaves : spelledOut (fun r => braced (nameItem q.toList "this".toList
      (pathTo "" (way ++ .index 0 :: r)).toList)) p.glyphs =
      spelledOut (fun r => braced ((if q = pathTo "" way then "this".toList
        else Template.representative (pathTo "" way).toList) ++ stepsText r)) p.glyphs := by
    refine spelledOut_congr fun r hr => ?_
    have hr := Passage.mem_ways_of_mem_glyphs hr
    rw [nameItem_pathTo h.read (plainKeys_item h.keys.1 (h.keys.2 r hr)) hfirst hway.isFirst
      (h.words r hr)]
  change _ ++ nameItem q.toList "this".toList
    (spelledOut (fun r => braced (pathTo "" (way ++ .index 0 :: r)).toList) p.glyphs) ++ _ = _
  rw [hnamed, hleaves, listingTemplate_eq]

/-- **Compiling a listing.** The component compiles to a block over the path as the loop spells it. If that is
the spelling of marking, the leaves are named in the item; if not, they are left to the item that stands for all
items. -/
theorem exists_compiled_listing (isBuilding : Bool) {props : Mapping} {markers : Registry}
    (hmarked : markedProps {} (named sample) = (.ok props, markers)) {depth : ℕ} (hdepth : 1 < depth)
    (source : Option String) (session : Session) :
    ∃ compiled, Compile.template { depth } isBuilding (listing q p) (.map (named sample)) source session =
        .ok (compiled, session) ∧
      compiled.text = listingTemplate q.toList (if q = pathTo "" way then "this".toList
        else Template.representative (pathTo "" way).toList) p := by
  obtain ⟨array, items, hway, hitems, hleaves⟩ := h.leaves
  obtain ⟨hread, hkeys, hleafKeys⟩ : _ ∧ _ ∧ _ := ⟨h.read, h.keys.1, h.keys.2⟩
  obtain ⟨key, rest, hfirst⟩ := hway.exists_eq_key hitems
  have hne : way ≠ [] := hfirst ▸ List.cons_ne_nil _ rest
  have heach : MarksEntries {} "" (named sample) {} props markers :=
    marks_of_markEntries "" (named sample) hmarked
  obtain ⟨marked, rfl⟩ := exists_named heach
  -- the marked copy has a list of one item at the way, with tokens for its leaves
  obtain ⟨x, s, s', hcopy, hlist, hextends⟩ := hway.exists_marks (.map heach)
  obtain ⟨item, rfl, hitem⟩ := hlist.of_items? hitems
  have hleaf : ∀ r ∈ p.ways, WayTo item r (.str (Shape.token {} (pathTo "" (way ++ .index 0 :: r)))) ∧
      (Shape.token {} (pathTo "" (way ++ .index 0 :: r)), pathTo "" (way ++ .index 0 :: r)) ∈
        markers.paths := by
    intro r hr
    obtain ⟨leaf, htoleaf, hisLeaf⟩ := hleaves r hr
    obtain ⟨htoken, hbound⟩ := htoleaf.leaf_mark hisLeaf hitem
    rw [pathTo_append]
    exact ⟨htoken, hextends hbound⟩
  have hspelled : ∀ r ∈ p.ways, IsSpelled (pathTo "" (way ++ .index 0 :: r)).toList := by
    intro r hr
    have hall : PlainKeys (way ++ .index 0 :: r) := plainKeys_item hkeys (hleafKeys r hr)
    rw [hfirst, List.cons_append] at hall ⊢
    exact isSpelled_pathTo hall
  -- the markup is a loop around tokens, and the outline has references in their place
  obtain ⟨arrayPath, harray⟩ := exists_arrayPath hread hkeys hne
  obtain ⟨inside, hinside, hwritten, -, -⟩ := exists_loop_outline hread hkeys harray
    (fun r => (Shape.token {} (pathTo "" (way ++ .index 0 :: r))).toList) (p := p)
    fun r _ => not_mem_token (by decide) _
  obtain ⟨inside', -, hwritten', htemplate', hsteady⟩ := exists_loop_outline hread hkeys harray
    (fun r => reference (pathTo "" (way ++ .index 0 :: r))) (p := p)
    fun r hr => angle_not_mem_braced ((hspelled r hr).isJoined.not_mem (by decide) (by decide))
  have hgives := gives_listing isBuilding (some markers) hread harray hcopy
    (fun r hr => (hleaf r hr).1) hinside hdepth
  obtain ⟨hseparated, hunmarked, hquoted⟩ := loopGlyphs_clear hread hkeys h.clear
  have hmem : ∀ r, .leaf r ∈ loopGlyphs q p → r ∈ p.ways := fun r hr =>
    Passage.mem_ways_of_mem_glyphs (by simpa [loopGlyphs, plainGlyphs] using hr)
  have hrender : renderMarkers { depth } isBuilding (listing q p) (named sample) session =
      .ok (⟨(Outline.loop (Tree.head none arrayPath none) inside .done).written, markers⟩, session) := by
    rw [renderMarkers, hmarked]
    refine (Yields.bind hgives (.pure (⟨_, markers⟩ : Marked)) session).trans ?_
    rw [List.append_nil, readAll_singleton, hread]
    rfl
  obtain ⟨compiled, hcompiled, htext⟩ := template_glyphs (heach.grows.2 (Registry.isSound_empty {}))
    hseparated hunmarked (fun r hr => (hleaf r (hmem r hr)).2)
    (fun r hr => (hspelled r (hmem r hr)).unmarked) hwritten
    (hwritten ▸ hquoted fun r _ => not_mem_token (by decide) _) hwritten' hsteady hrender source
  exact ⟨compiled, hcompiled, htext.trans (htemplate'.trans h.loop_references)⟩

/-- **Spellings.** The component of a loop compiles however the path of its array is spelled. The leaves are
named in the item exactly if the path is spelled as marking does, or if there are none. -/
theorem template_listing (isBuilding : Bool) {props : Mapping} {markers : Registry}
    (hmarked : markedProps {} (named sample) = (.ok props, markers)) {depth : ℕ} (hdepth : 1 < depth)
    (source : Option String) (session : Session) :
    ∃ compiled, Compile.template { depth } isBuilding (listing q p) (.map (named sample)) source session =
        .ok (compiled, session) ∧
      compiled.text = listingTemplate q.toList (if q = pathTo "" way then "this".toList
        else Template.representative (pathTo "" way).toList) p ∧
      (compiled.text = listingTemplate q.toList "this".toList p ↔
        q = pathTo "" way ∨ ∀ r, .leaf r ∉ p.glyphs) := by
  obtain ⟨compiled, hcompiled, htext⟩ :=
    exists_compiled_listing h isBuilding hmarked hdepth source session
  refine ⟨compiled, hcompiled, htext, ?_⟩
  rw [htext]
  by_cases hsame : q = pathTo "" way
  · rw [if_pos hsame]
    exact iff_of_true rfl (.inl hsame)
  · have hpositive := List.length_pos_iff.mpr h.pathTo_ne_nil
    have hthis : "this".toList.length = 4 := by decide
    have hitem : ".[0]".toList.length = 4 := by decide
    rw [if_neg hsame]
    refine (listingTemplate_eq_iff ?_ p).trans (or_iff_right hsame).symm
    rw [Template.representative, List.length_append, hthis, hitem]
    omega

end Template

/-- The names of what is listed. -/
def itemNames : Passage := .leaf [.key "name"] .done

/-- The members of the first group, with another spelling than that of marking. -/
private theorem lists_members :
    Lists groupSample "groups[0].members" [.key "groups", .index 0, .key "members"] itemNames := by
  have hgroups : IsIdentifier "groups".toList ∧ ¬ markerLead <:+: "groups".toList := by decide
  have hmembers : IsIdentifier "members".toList ∧ ¬ markerLead <:+: "members".toList := by decide
  have hname : IsIdentifier "name".toList ∧ ¬ markerLead <:+: "name".toList := by decide
  refine ⟨rfl, ⟨_, _, .entry rfl (.first rfl (.entry rfl (.here _))), rfl, ?_⟩, ⟨?_, ?_⟩, ?_,
    ⟨by decide, by decide⟩, by decide⟩
  · exact List.forall_mem_singleton.mpr ⟨_, .entry rfl (.here _), rfl⟩
  · intro key hmem
    obtain rfl | rfl : key = "groups" ∨ key = "members" := by simpa using hmem
    · exact hgroups
    · exact hmembers
  · refine List.forall_mem_singleton.mpr fun key hmem => ?_
    obtain rfl : key = "name" := by simpa using hmem
    exact hname
  · refine List.forall_mem_singleton.mpr fun key hmem => ?_
    obtain rfl | rfl | rfl : key = "groups" ∨ key = "members" ∨ key = "name" := by simpa using hmem
    · decide
    · decide
    · decide

private theorem marked_members : markedProps {} (named groupSample) = (.ok
    (named [("groups", .list [.map [(.str "members", .list [.map [(.str "name",
      .str "__PROP_groups__0__members__0__name__")]])]])]),
    ⟨[("__PROP_groups__0__members__0__name__", "groups.[0].members.[0].name")],
      [("groups.[0].members.[0].name", "__PROP_groups__0__members__0__name__")]⟩) := rfl

/-- The names of the members are left to the first one. -/
theorem template_listing_members : ∃ compiled,
    Compile.template {} false (listing "groups[0].members" itemNames) (.map (named groupSample)) none {} =
      .ok (compiled, {}) ∧
    compiled.text = ("\x7b\x7b#each groups[0].members\x7d\x7d" ++
      "\x7b\x7bgroups.[0].members.[0].name\x7d\x7d\x7b\x7b/each\x7d\x7d").toList := by
  obtain ⟨compiled, hcompiled, htext, -⟩ := template_listing lists_members false marked_members
    (show 1 < depthLimit by decide) none {}
  exact ⟨compiled, hcompiled, htext.trans (by decide)⟩

/-- **Two spellings of one path.** Compiled with the spelling that marking does not use, the component has no
reference to the item of the loop, though both spellings are the same path. -/
theorem template_listing_ne :
    Path.parse "groups[0].members".toList = Path.parse "groups.[0].members".toList ∧
      ∃ compiled, Compile.template {} false (listing "groups[0].members" itemNames)
          (.map (named groupSample)) none {} = .ok (compiled, {}) ∧
        compiled.text ≠ listingTemplate "groups[0].members".toList "this".toList itemNames := by
  obtain ⟨compiled, hcompiled, htext⟩ := exists_compiled_listing lists_members false marked_members
    (show 1 < depthLimit by decide) none {}
  refine ⟨by decide, compiled, hcompiled, ?_⟩
  rw [htext]
  decide

end Stencil.Compile
