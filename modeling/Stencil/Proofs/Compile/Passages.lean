import Stencil.Proofs.Compile.Nested
import Stencil.Proofs.Marker.Ways
import Stencil.Proofs.Render.Passage

/-!
# Compiling markup with leaves in it

Markup in which tokens of leaves stand apart goes through the stages leaf by leaf: nothing in it is cleaned
up, substitution takes the tokens to the references of their paths, and what is lowered then is an outline
(`runStages_glyphs`). So **a component that is rendered to such markup compiles to the template of the
outline with references for the leaves** (`template_glyphs`).
-/

namespace Stencil.Template

open Text Markup

/-! ### Outlines without comments -/

private theorem uncommented_braced {path : Text} (plain : '<' ∉ path) : Uncommented (braced path) :=
  uncommented_of_not_mem (angle_not_mem_braced plain)

namespace Shell

variable (e : Shell)

private theorem uncommented_name {t : Text} (h : '<' ∉ t) (hhead : ∀ c ∈ t.head?, c ≠ '!')
    (hne : t ≠ []) : Uncommented ('<' :: (e.tag.toList ++ t)) := by
  have htag : ∀ c ∈ e.tag.toList, c ≠ '<' ∧ c ≠ '!' := by
    intro c hc
    have hletter := e.isNameLetter_of_mem c hc
    refine ⟨?_, ?_⟩ <;> rintro rfl <;> exact absurd hletter (by decide)
  have hplain : '<' ∉ e.tag.toList ++ t := by
    rw [List.mem_append, not_or]
    exact ⟨fun hmem => (htag _ hmem).1 rfl, h⟩
  obtain ⟨c, cs, ht⟩ := List.exists_cons_of_ne_nil hne
  cases hname : e.tag.toList with
  | nil =>
    rw [hname] at hplain
    exact uncommented_tag hplain (c := c) (by simp [ht]) (hhead c (by simp [ht]))
  | cons d ds =>
    rw [hname] at hplain
    exact uncommented_tag hplain (c := d) rfl (htag d (by simp [hname])).2

theorem uncommented_opening : Uncommented e.opening := by
  have hrest : e.opening = '<' :: (e.tag.toList ++ (e.attributes ++
      if isVoid e.tag then ['/', '>'] else ['>'])) := by
    simp [opening]
  rw [hrest]
  have hends : ∀ c ∈ ['/', '>'], c ≠ '<' ∧ c ≠ '!' := by decide
  refine e.uncommented_name ?_ (fun c hc => ?_) (by split <;> simp)
  · rw [List.mem_append, not_or]
    refine ⟨e.attributes_plain.1, ?_⟩
    split <;> decide
  · rcases e.attributes_head with hnone | hspace
    · rw [hnone, List.nil_append] at hc
      split at hc <;> obtain rfl := Option.some.inj hc <;> decide
    · rw [List.head?_append, hspace] at hc
      obtain rfl := Option.some.inj hc
      decide

theorem uncommented_closing : Uncommented e.closing := by
  rw [closing_eq]
  split
  · trivial
  · refine uncommented_tag ?_ (c := '/') rfl (by decide)
    have hname : '<' ∉ e.tag.toList := fun hmem => absurd (e.isNameLetter_of_mem _ hmem) (by decide)
    simp [hname]

end Shell

/-- A conditional's opening tag, character by character. -/
theorem ifTag_eq (condition : Text) : ifTag condition =
    '<' :: ("hb-if condition=".toList ++ '"' :: (escape condition ++ ['"', '>'])) := by
  have hname : "condition".toList = ['c', 'o', 'n', 'd', 'i', 't', 'i', 'o', 'n'] := by decide
  have hlit : "hb-if condition=".toList =
      ['h', 'b', '-', 'i', 'f', ' ', 'c', 'o', 'n', 'd', 'i', 't', 'i', 'o', 'n', '='] := by decide
  simp [ifTag, ifOpening_eq, writtenAttribute, hname, hlit]

private theorem uncommented_ifTag (condition : Text) : Uncommented (ifTag condition) := by
  have hescape : '<' ∉ escape condition := fun hmem => (mem_escape hmem).1 rfl
  rw [ifTag_eq]
  refine uncommented_tag (c := 'h') ?_ rfl (by decide)
  rw [List.mem_append, not_or]
  exact ⟨by decide, by simp [hescape]⟩

private theorem uncommented_loopTag (h : LoopHead) : Uncommented h.tag := by
  have hplain := h.not_mem_attributes (.inl rfl : '<' = '<' ∨ '<' = '>')
  rw [LoopHead.tag, eachOpening_eq]
  exact uncommented_tag (c := 'h') (by simp [hplain]) rfl (by decide)

/-- **No comments.** In the markup of an outline there are no comments to strip. -/
theorem Outline.uncommented_written (o : Outline) : Uncommented o.written := by
  have hif : Uncommented ifClosing := by
    rw [ifClosing_eq]
    exact uncommented_tag (c := '/') (by decide) rfl (by decide)
  have helse : Uncommented elseOpening ∧ Uncommented elseClosing := by
    rw [elseOpening_eq, elseClosing_eq]
    exact ⟨uncommented_tag (c := 'h') (by decide) rfl (by decide),
      uncommented_tag (c := '/') (by decide) rfl (by decide)⟩
  have heach : Uncommented eachClosing := by
    rw [eachClosing_eq]
    exact uncommented_tag (c := '/') (by decide) rfl (by decide)
  induction o with
  | done => trivial
  | text t plain rest ih => exact (uncommented_of_not_mem plain).append ih
  | reference path plain rest ih => exact (uncommented_braced plain).append ih
  | element e inner rest ihi ihr =>
    exact (e.uncommented_opening.append (ihi.append e.uncommented_closing)).append ihr
  | conditional c body rest ihb ihr => exact ((uncommented_ifTag c).append (ihb.append hif)).append ihr
  | choice c before alternative after rest ihb iha ihf ihr =>
    exact ((uncommented_ifTag c).append ((ihb.append (helse.1.append (iha.append
      (helse.2.append ihf)))).append hif)).append ihr
  | loop h body rest ihb ihr =>
    exact ((uncommented_loopTag h.toLoopHead).append (ihb.append heach)).append ihr

/-- An attribute of the host is not in a tag whose only attribute has another name, and no equals sign in its
value. -/
theorem hostAttribute_not_infix_tag {opening value rest : Text}
    (hopening : '"' ∉ opening ∧ ¬ ['d', 'a', 't', 'a', '-', 'i', 'd', '='] <:+ opening)
    (hvalue : '"' ∉ value ∧ '=' ∉ value) (hrest : '"' ∉ rest) :
    ¬ hostAttribute <:+: opening ++ '"' :: (value ++ '"' :: rest) := fun h => by
  have hname : hostAttribute = ['d', 'a', 't', 'a', '-', 'i', 'd', '='] ++ ['"'] := rfl
  rw [hname] at h
  -- it ends with a quote, so that it ends at the one in front of the value or at the one behind it
  rcases suffix_or_infix_of_infix_append_cons h (by decide) hopening.1 with h | h
  · exact hopening.2 h
  · rcases suffix_or_infix_of_infix_append_cons h (by decide) hvalue.1 with h | h
    · exact hvalue.2 (h.subset (by decide))
    · exact hrest (h.subset (by decide))

/-- No pseudo-tag is left in the template of a steady outline. -/
theorem Outline.Steady.untagged_template {o : Outline} (h : o.Steady) : Untagged o.template := by
  rcases h with h | h
  · exact (keeps_tight.reaches_template o h).2.untagged
  · exact (keeps_untagged.reaches_template o h).2

end Stencil.Template

namespace Stencil.Render

open Text Markup Template Component

/-- A passage whose leaves stand apart from the characters of tokens and from each other, and in whose
constants no token begins. -/
structure Passage.IsClear (lead : Text) (p : Passage) : Prop where
  separated : Separated p.glyphs
  unmarked : ¬ lead <:+: constants p.glyphs

/-- No constant of a passage has a quote. -/
theorem Passage.quote_not_mem_constants (p : Passage) : '"' ∉ constants p.glyphs := by
  induction p with
  | done => exact List.not_mem_nil
  | text s rest ih =>
    have hescape : '"' ∉ escape s.toList := fun hmem => (mem_escape hmem).2.2 rfl
    simpa [constants, glyphs, hescape] using ih
  | leaf way rest ih => exact ih
  | element tag inside rest ihi ihr =>
    have hname : '"' ∉ tag.name.toList := fun hmem =>
      absurd (tag.isNameLetter_of_mem _ hmem) (by decide)
    have hopening : '"' ∉ (Tree.shell tag []).opening := by
      have heq : (Tree.shell tag []).opening =
          '<' :: (tag.name.toList ++ if isVoid tag.name then ['/', '>'] else ['>']) := by
        simp [Shell.opening, Tree.shell, Tree.attributesText]
      rw [heq]
      split <;> simp [hname]
    have hclosing : '"' ∉ (Tree.shell tag []).closing := by
      rw [Shell.closing_eq]
      split
      · exact List.not_mem_nil
      · simp [Tree.shell, hname]
    have hinside : '"' ∉ constants (if isVoid tag.name then [] else inside.glyphs) := by
      split
      · exact List.not_mem_nil
      · exact ihi
    simp only [constants] at hinside ihr ⊢
    simp [glyphs, hopening, hclosing, hinside, ihr]

/-- If no leaf is shown with a quote, a passage has none. -/
theorem Passage.quote_not_mem_spelledOut {shown : Path → Text} {p : Passage}
    (h : ∀ way ∈ p.ways, '"' ∉ shown way) : '"' ∉ spelledOut shown p.glyphs := fun hmem => by
  rcases mem_spelledOut hmem with hmem | ⟨way, hway, hmem⟩
  · exact p.quote_not_mem_constants hmem
  · exact h way (Passage.mem_ways_of_mem_glyphs hway) hmem

end Stencil.Render

namespace Stencil.Compile

open Text Markup Template Component Render Marker

/-! ### The paths of leaves -/

/-- The keys on a way are identifiers in which no marker begins. -/
def PlainKeys (p : Path) : Prop :=
  ∀ name, .key name ∈ p → IsIdentifier name.toList ∧ ¬ markerLead <:+: name.toList

theorem isJoined_stepsText {p : Path} (h : PlainKeys p) : IsJoined (stepsText p) := by
  induction p with
  | nil => exact fun c hc => by cases hc
  | cons s p ih =>
    have hrest := ih fun name hmem => h name (List.mem_cons_of_mem _ hmem)
    cases s with
    | key name =>
      refine List.forall_mem_cons.mpr ⟨.inr (by simp), List.forall_mem_append.mpr ⟨fun c hc => .inl ?_, hrest⟩⟩
      exact (h name List.mem_cons_self).1.isIdentifierChar_of_mem c hc
    | index i =>
      refine List.forall_mem_cons.mpr ⟨.inr (by simp), List.forall_mem_cons.mpr ⟨.inr (by simp), ?_⟩⟩
      exact List.forall_mem_cons.mpr ⟨.inl (by decide), List.forall_mem_cons.mpr ⟨.inr (by simp), hrest⟩⟩

/-- No marker begins in a name and steps behind it. -/
theorem unmarked_stepsText {p : Path} (h : PlainKeys p) {u : Text} (hu : ¬ markerLead <:+: u) :
    ¬ markerLead <:+: u ++ stepsText p := by
  induction p generalizing u with
  | nil => rwa [stepsText, List.append_nil]
  | cons s p ih =>
    have hrest : PlainKeys p := fun name hmem => h name (List.mem_cons_of_mem _ hmem)
    cases s with
    | key name =>
      exact not_infix_append_cons hu (ih hrest (h name List.mem_cons_self).2) (by decide)
    | index i =>
      have hitem : ¬ markerLead <:+: ['[', '0', ']'] ++ stepsText p := ih hrest (by decide)
      exact not_infix_append_cons hu hitem (by decide)

/-- The path of a leaf, from the root. -/
theorem isSpelled_pathTo {name : String} {p : Path} (h : PlainKeys (.key name :: p)) :
    IsSpelled (pathTo "" (.key name :: p)).toList := by
  obtain ⟨hname, hunmarked⟩ := h name List.mem_cons_self
  have hrest : PlainKeys p := fun other hmem => h other (List.mem_cons_of_mem _ hmem)
  rw [toList_pathTo_root hname.ne_nil]
  refine ⟨?_, List.forall_mem_append.mpr ⟨fun c hc => .inl ?_, isJoined_stepsText hrest⟩,
    unmarked_stepsText hrest hunmarked⟩
  · exact List.append_ne_nil_of_left_ne_nil hname.ne_nil _
  · exact hname.isIdentifierChar_of_mem c hc

/-! ### Tokens -/

/-- A token is a word of ASCII characters. -/
theorem isTokenChar_token (path : String) : ∀ c ∈ (Shape.token {} path).toList, isTokenChar c = true := by
  have hlead : ∀ c ∈ "__PROP_".toList, isAsciiWord c = true := by decide
  have htail : ∀ c ∈ "__".toList, isAsciiWord c = true := by decide
  intro c h
  rw [Shape.token, String.toList_append, String.toList_append, List.mem_append, List.mem_append] at h
  rcases h with (h | h) | h
  · exact hlead c h
  · rw [String.toList_ofList] at h
    obtain ⟨d, -, rfl⟩ := List.mem_map.mp h
    split
    · next hsafe =>
      rw [isTokenChar, isAsciiWord, Bool.or_eq_true]
      exact .inl hsafe
    · decide
  · exact htail c h

theorem not_mem_token {c : Char} (hc : isTokenChar c = false) (path : String) :
    c ∉ (Shape.token {} path).toList := fun hmem => by
  rw [isTokenChar_token path c hmem] at hc
  cases hc

/-- A token is written in markup as it is. -/
theorem printed_token (path : String) :
    printed (.str (Shape.token {} path)) = (Shape.token {} path).toList := by
  have hdisplay : printed (.str (Shape.token {} path)) = escape (Shape.token {} path).toList := rfl
  rw [hdisplay, (isJoined_token path).escape_eq]

/-- A passage of data with a token for each of its leaves is printed as the tokens. -/
theorem spelledOut_printed {data : Value} {p : Passage} {path : Path → String}
    (h : ∀ r ∈ p.ways, data.select r = .str (Shape.token {} (path r))) :
    spelledOut (fun r => printed (data.select r)) p.glyphs =
      spelledOut (fun r => (Shape.token {} (path r)).toList) p.glyphs := by
  refine spelledOut_congr fun r hr => ?_
  rw [h r (Passage.mem_ways_of_mem_glyphs hr), printed_token]

/-! ### The stages -/

section Glyphs

variable {markers : Registry} (hsound : markers.IsSound {}) {glyphs : List Glyph} {path : Path → String}
  (hseparated : Separated glyphs) (hunmarked : ¬ markerLead <:+: constants glyphs)
  (hbound : ∀ way, .leaf way ∈ glyphs → (Shape.token {} (path way), path way) ∈ markers.paths)
  (hpath : ∀ way, .leaf way ∈ glyphs → ¬ markerLead <:+: (path way).toList)

include hsound hseparated hunmarked hbound hpath

/-- The tokens of leaves are substituted by the references to their paths. -/
theorem substitute_glyphs (journal : Journal) :
    ∃ journal', substitute {} false (bound markers.paths)
      (spelledOut (fun way => (Shape.token {} (path way)).toList) glyphs) journal =
        (.ok (spelledOut (fun way => reference (path way)) glyphs), journal') := by
  have htable := isTable_paths hsound
  have hrow : ∀ row ∈ bound markers.paths, ∃ entry ∈ markers.paths, row.1 = entry.1 := by
    intro row hrow
    obtain ⟨entry, hentry, rfl⟩ := List.mem_map.mp hrow
    exact ⟨entry, hentry, rfl⟩
  have hchars : ∀ row ∈ bound markers.paths, ∀ c ∈ row.1.toList, isTokenChar c = true := by
    intro row hmem
    obtain ⟨entry, hentry, heq⟩ := hrow row hmem
    rw [heq, hsound.eq_token entry hentry]
    exact isTokenChar_token entry.2
  have hlead : ∀ row ∈ bound markers.paths, (Shape.lead {}).toList <+: row.1.toList := by
    intro row hmem
    obtain ⟨entry, hentry, heq⟩ := hrow row hmem
    rw [heq]
    exact (htable.isTokenWord entry hentry).starts
  have hnodup : ((bound markers.paths).map Prod.fst).Nodup := by
    rw [bound, List.map_map]
    exact hsound.nodup
  have hspelled := substituted_spelledOut {} (by decide) hchars hlead hnodup hseparated
    (by rwa [lead_eq]) (fun way hway => List.mem_map.mpr ⟨_, hbound way hway, rfl⟩)
    (fun way hway => by rw [lead_eq]; exact hpath way hway)
  obtain ⟨journal', hsubstitute⟩ := exists_substitute {} (bound markers.paths)
    (spelledOut (fun way => (Shape.token {} (path way)).toList) glyphs) journal
  exact ⟨journal', hspelled ▸ hsubstitute⟩

variable {o o' : Outline}
  (hwritten : o.written = spelledOut (fun way => (Shape.token {} (path way)).toList) glyphs)
  (hquoted : ¬ hostAttribute <:+: o.written)
  (hwritten' : o'.written = spelledOut (fun way => reference (path way)) glyphs) (hsteady : o'.Steady)

include hwritten hquoted hwritten' hsteady

/-- **The stages.** Markup with tokens of leaves in it goes through the stages to the template of the
outline with references. -/
theorem runStages_glyphs (source : Option String) (depth : ℕ) (journal : Journal) :
    ∃ journal', runStages ⟨markers, source⟩ (Options.stages { depth }) o.written journal =
      (.ok o'.template, journal') := by
  obtain ⟨middle, hsubstitute⟩ := substitute_glyphs hsound hseparated hunmarked hbound hpath journal
  obtain ⟨journal', hlower⟩ := Outline.lowerTags_written hsteady middle
  rw [← hwritten, ← hwritten'] at hsubstitute
  have hvalid : refuseUnbalanced source o'.template journal' = (.ok o'.template, journal') := by
    rw [refuseUnbalanced, unbalanced_of_untagged hsteady.untagged_template]
    rfl
  refine ⟨journal', ?_⟩
  rw [stages_default]
  simp only [runStages, Stage.run, stripComments_of_uncommented o.uncommented_written,
    stripAttributes_of_absent hquoted, pure_bind]
  exact (Work.bind_of_ok hsubstitute).trans ((Work.bind_of_ok hlower).trans (Work.bind_of_ok hvalid))

/-- **Compiling.** A component that is rendered to markup with tokens of leaves in it compiles to the
template of the outline with references. -/
theorem template_glyphs {isBuilding : Bool} {component : Value} {sample : List (String × Value)}
    {depth : ℕ} {session : Session}
    (hrender : renderMarkers { depth } isBuilding component (named sample) session =
      .ok (⟨o.written, markers⟩, session)) (source : Option String) :
    ∃ compiled, Compile.template { depth } isBuilding component (.map (named sample)) source session =
      .ok (compiled, session) ∧ compiled.text = o'.template := by
  obtain ⟨journal, hstages⟩ := runStages_glyphs hsound hseparated hunmarked hbound hpath hwritten hquoted
    hwritten' hsteady source depth []
  have hfinish : finish { depth } source ⟨o.written, markers⟩ =
      .ok ⟨o'.template, markers, summarize markers journal, source⟩ := by
    have hrun : (Options.compileMarkup { depth } ⟨markers, source⟩ o.written).run.run [] =
        (.ok o'.template, journal) := hstages
    simp only [finish, hrun]
  refine ⟨⟨o'.template, markers, summarize markers journal, source⟩, ?_, rfl⟩
  rw [Compile.template]
  simp only [bind, StateT.bind, Except.bind, sampleFor_map, hrender, hfinish]
  rfl

end Glyphs

end Stencil.Compile
