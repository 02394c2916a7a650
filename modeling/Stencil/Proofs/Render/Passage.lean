import Stencil.Proofs.Render.Markers
import Stencil.Proofs.Template.Glyphs

/-!
# Passages

A passage is what a component prints of a variable: constant texts, elements, and leaves, each with a way
from the variable to it. The bodies of a passage are evaluated to its values (`evalAll_bodies`), and both in
a preview and for a template **the values are rendered as the glyphs of the passage, with every leaf printed
as the scalar that it is** (`isPrinted_values`). Every spelling of the glyphs is that of an outline without
pseudo-tags (`exists_outline`).
-/

namespace Stencil.Render

open Text Markup Template Component

/-- What a component prints of a variable. Each part has the parts behind it as its last argument. -/
inductive Passage where
  /-- Nothing more. -/
  | done
  /-- A constant text. -/
  | text (s : String) (rest : Passage)
  /-- A leaf. -/
  | leaf (way : Path) (rest : Passage)
  /-- An element around what is inside it. -/
  | element (tag : TagName) (inside rest : Passage)

/-- A scalar that a leaf may be. -/
def IsScalar : Value → Prop
  | .null | .bool _ | .int _ | .float _ | .str _ => True
  | _ => False

/-- The text that a scalar is printed as. -/
def printed : Value → Text
  | .null | .bool _ => []
  | v => escape v.display

namespace Passage

/-- The bodies that print the leaves of a variable. -/
def bodies (name : String) : Passage → List Body
  | done => []
  | text s rest => .str s :: rest.bodies name
  | leaf way rest => .ref name way :: rest.bodies name
  | element tag inside rest =>
    .element (.str tag.name) (.map []) (inside.bodies name) :: rest.bodies name

/-- The values of a passage, with what is found at the leaves. -/
def values (find : Path → Value) : Passage → List Value
  | done => []
  | text s rest => .str s :: rest.values find
  | leaf way rest => find way :: rest.values find
  | element tag inside rest =>
    .element (.str tag.name) (Tree.properties []) (inside.values find) :: rest.values find

/-- The markup of a passage. There is nothing inside an element that is void. -/
def glyphs : Passage → List Glyph
  | done => []
  | text s rest => plainGlyphs (escape s.toList) ++ rest.glyphs
  | leaf way rest => .leaf way :: rest.glyphs
  | element tag inside rest =>
    let shell := Tree.shell tag []
    plainGlyphs shell.opening ++ ((if isVoid tag.name then [] else inside.glyphs) ++
      plainGlyphs shell.closing) ++ rest.glyphs

/-- The ways to the leaves of a passage. -/
def ways : Passage → List Path
  | done => []
  | text _ rest => rest.ways
  | leaf way rest => way :: rest.ways
  | element _ inside rest => inside.ways ++ rest.ways

theorem mem_ways_of_mem_glyphs {way : Path} {p : Passage} (h : .leaf way ∈ p.glyphs) : way ∈ p.ways := by
  induction p with
  | done => cases h
  | text s rest ih => exact ih ((List.mem_append.mp h).resolve_left leaf_not_mem_plainGlyphs)
  | leaf own rest ih =>
    rcases List.mem_cons.mp h with heq | h
    · cases heq
      exact List.mem_cons_self
    · exact List.mem_cons_of_mem _ (ih h)
  | element tag inside rest ihi ihr =>
    rcases List.mem_append.mp h with h | h
    · have hinside := (List.mem_append.mp h).resolve_left leaf_not_mem_plainGlyphs
      have hglyphs := (List.mem_append.mp hinside).resolve_right leaf_not_mem_plainGlyphs
      split at hglyphs
      · cases hglyphs
      · exact List.mem_append_left _ (ihi hglyphs)
    · exact List.mem_append_right _ (ihr h)

/-! ### Evaluation -/

/-- **Evaluation.** The bodies of a passage come to its values, with what the variable has at the
leaves. -/
theorem evalAll_bodies (isBuilding : Bool) (scope : Scope) (name : String) (p : Passage) :
    Body.evalAll isBuilding scope (p.bodies name) =
      pure (p.values fun way => ((scope.lookup name).getD .null).select way) := by
  induction p with
  | done => rfl
  | text s rest ih =>
    rw [bodies, Body.evalAll, ih]
    rfl
  | leaf way rest ih =>
    rw [bodies, Body.evalAll, ih]
    rfl
  | element tag inside rest ihi ihr =>
    have hmake : ∀ children, Element.make (.str tag.name) [] children =
        .element (.str tag.name) (Tree.properties []) children := by
      intro children
      cases children <;> rfl
    have helement : Body.eval isBuilding scope (.element (.str tag.name) (.map []) (inside.bodies name)) =
        pure (.element (.str tag.name) (Tree.properties [])
          (inside.values fun way => ((scope.lookup name).getD .null).select way)) := by
      rw [Body.eval, ihi, ← hmake]
      rfl
    rw [bodies, Body.evalAll, ihr, helement]
    rfl

/-! ### Rendering -/

/-- Values that come to a text in every context, rendered and as the parts of a region. -/
structure IsPrinted (s : Setting) (onward : Context → Value → Pass Text) (vs : List Value) (t : Text) :
    Prop where
  all : ∀ ctx, renderAll s onward vs ctx = pure t
  parts : ∃ ps, Render.parts s onward vs = pure ps ∧ (∀ p ∈ ps, p.node.helper? ≠ some .otherwise) ∧
    ∀ ctx, renderParts ctx ps = pure t

section Rendering

variable {s : Setting} {onward : Context → Value → Pass Text}

theorem isPrinted_nil : IsPrinted s onward [] [] := by
  refine ⟨fun ctx => ?_, [], ?_, by simp, fun ctx => rfl⟩
  · rw [renderAll]
  · rw [Render.parts]

/-- A value in front, that is one part or none. -/
theorem IsPrinted.cons {v : Value} {vs : List Value} {t u : Text} (hv : IsPrinted s onward [v] t)
    (hvs : IsPrinted s onward vs u) : IsPrinted s onward (v :: vs) (t ++ u) := by
  obtain ⟨hall, ps, hps, hregions, hrender⟩ := hv
  obtain ⟨hall', qs, hqs, hregions', hrender'⟩ := hvs
  have hnode : ∀ ctx, renderNode s onward v ctx = pure t := by
    intro ctx
    have hone := hall ctx
    simpa only [renderAll, pure_bind, bind_pure, List.append_nil] using hone
  have hpart : partsOf s onward v = pure ps := by
    simpa only [Render.parts, pure_bind, bind_pure, List.append_nil] using hps
  refine ⟨fun ctx => ?_, ps ++ qs, ?_, List.forall_mem_append.mpr ⟨hregions, hregions'⟩, fun ctx => ?_⟩
  · rw [renderAll, hnode, hall', pure_bind, pure_bind]
  · rw [Render.parts, hpart, hqs, pure_bind, pure_bind]
  · rw [renderParts_append, hrender, hrender', pure_bind, pure_bind]

theorem isPrinted_singleton {v : Value} {t : Text} (hpart : partsOf s onward v =
      pure [⟨v, renderNode s onward v⟩]) (hregion : v.helper? ≠ some .otherwise)
    (h : ∀ ctx, renderNode s onward v ctx = pure t) : IsPrinted s onward [v] t := by
  refine ⟨fun ctx => ?_, [⟨v, renderNode s onward v⟩], ?_, by simpa using hregion, fun ctx => ?_⟩
  · simp only [renderAll, h, pure_bind, List.append_nil]
  · simp only [Render.parts, hpart, pure_bind, List.append_nil]
  · simp only [renderParts, h, pure_bind, List.append_nil]

theorem isPrinted_scalar {v : Value} (h : IsScalar v) : IsPrinted s onward [v] (printed v) := by
  have hnothing : ∀ {v : Value}, (∀ ctx, renderNode s onward v ctx = pure []) →
      partsOf s onward v = pure [] → IsPrinted s onward [v] [] := by
    intro v hnode hpart
    refine ⟨fun ctx => ?_, [], ?_, by simp, fun ctx => rfl⟩
    · simp only [renderAll, hnode, pure_bind, List.append_nil]
    · simp only [Render.parts, hpart, pure_bind, List.append_nil]
  cases v with
  | null => exact hnothing (fun ctx => by simp only [renderNode]) (by simp only [partsOf])
  | bool b => exact hnothing (fun ctx => by simp only [renderNode]) (by simp only [partsOf])
  | int i =>
    exact isPrinted_singleton (by simp only [partsOf]) (by simp [Value.helper?])
      fun ctx => by simp only [renderNode]; rfl
  | float x =>
    exact isPrinted_singleton (by simp only [partsOf]) (by simp [Value.helper?])
      fun ctx => by simp only [renderNode]; rfl
  | str s =>
    exact isPrinted_singleton (by simp only [partsOf]) (by simp [Value.helper?])
      fun ctx => by simp only [renderNode]; rfl
  | _ => exact h.elim

theorem isPrinted_element (tag : TagName) {vs : List Value} {t : Text} (h : IsPrinted s onward vs t) :
    IsPrinted s onward [.element (.str tag.name) (Tree.properties []) vs]
      ((Tree.shell tag []).opening ++ ((if isVoid tag.name then [] else t) ++
        (Tree.shell tag []).closing)) := by
  refine isPrinted_singleton (by simp only [partsOf]) (by simp [Value.helper?]) fun ctx => ?_
  have hclosing : (Tree.shell tag []).closing =
      if isVoid tag.name then [] else '<' :: '/' :: (tag.name.toList ++ ['>']) := rfl
  simp only [renderNode]
  rw [renderTag_properties, h.all]
  by_cases hvoid : isVoid tag.name = true
  · rw [hclosing, if_pos hvoid, if_pos hvoid, if_pos hvoid]
    simp
  · rw [if_neg hvoid, if_neg hvoid, pure_bind, List.append_assoc]

/-- **Rendering.** A passage whose leaves are scalars is rendered as its glyphs. -/
theorem isPrinted_values (s : Setting) (onward : Context → Value → Pass Text) {find : Path → Value}
    {p : Passage} (h : ∀ way ∈ p.ways, IsScalar (find way)) :
    IsPrinted s onward (p.values find) (spelledOut (fun way => printed (find way)) p.glyphs) := by
  induction p with
  | done => exact isPrinted_nil
  | text text rest ih =>
    have hall := (isPrinted_scalar (v := .str text) trivial).cons (ih h)
    simpa [glyphs, values, printed] using hall
  | leaf way rest ih =>
    rw [ways, List.forall_mem_cons] at h
    exact (isPrinted_scalar h.1).cons (ih h.2)
  | element tag inside rest ihi ihr =>
    rw [ways, List.forall_mem_append] at h
    have hall := (isPrinted_element tag (ihi h.1)).cons (ihr h.2)
    have hinside : spelledOut (fun way => printed (find way)) (if isVoid tag.name then [] else inside.glyphs) =
        if isVoid tag.name then [] else spelledOut (fun way => printed (find way)) inside.glyphs := by
      split <;> rfl
    simpa [glyphs, values, hinside] using hall

end Rendering

/-! ### Outlines -/

/-- Every spelling of a passage is the text of an outline without pseudo-tags. -/
theorem exists_outline {shown : Path → Text} {p : Passage} (h : ∀ way ∈ p.ways, '<' ∉ shown way) :
    ∃ o : Outline, o.written = spelledOut shown p.glyphs ∧ o.template = spelledOut shown p.glyphs ∧
      ∀ ok, o.EveryLoop ok := by
  induction p with
  | done => exact ⟨.done, rfl, rfl, fun ok => trivial⟩
  | text s rest ih =>
    obtain ⟨o, hwritten, htemplate, hloops⟩ := ih h
    have hplain : '<' ∉ escape s.toList := fun hmem => (mem_escape hmem).1 rfl
    refine ⟨.text (escape s.toList) hplain o, ?_, ?_, hloops⟩
    · rw [Outline.written, hwritten, glyphs, spelledOut_append, spelledOut_plainGlyphs]
    · rw [Outline.template, htemplate, glyphs, spelledOut_append, spelledOut_plainGlyphs]
  | leaf way rest ih =>
    rw [ways, List.forall_mem_cons] at h
    obtain ⟨o, hwritten, htemplate, hloops⟩ := ih h.2
    refine ⟨.text (shown way) h.1 o, ?_, ?_, hloops⟩
    · rw [Outline.written, hwritten, glyphs, spelledOut_leaf]
    · rw [Outline.template, htemplate, glyphs, spelledOut_leaf]
  | element tag inside rest ihi ihr =>
    rw [ways, List.forall_mem_append] at h
    obtain ⟨inner, hinner, hinner', hinnerLoops⟩ := ihi h.1
    obtain ⟨o, hwritten, htemplate, hloops⟩ := ihr h.2
    by_cases hvoid : isVoid tag.name = true
    · refine ⟨.element (Tree.shell tag []) .done o, ?_, ?_, fun ok => ⟨trivial, hloops ok⟩⟩
      · simp [Outline.written, hwritten, glyphs, hvoid]
      · simp [Outline.template, htemplate, glyphs, hvoid]
    · refine ⟨.element (Tree.shell tag []) inner o, ?_, ?_, fun ok => ⟨hinnerLoops ok, hloops ok⟩⟩
      · simp [Outline.written, hwritten, hinner, glyphs, hvoid]
      · simp [Outline.template, htemplate, hinner', glyphs, hvoid]

end Passage

end Stencil.Render
