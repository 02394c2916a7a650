import Mathlib.Data.List.Chain
import Stencil.Path
import Stencil.Proofs.Template.Content
import Stencil.Proofs.Template.Substituted

/-!
# Texts with leaves in them

Markup in which leaves of data are printed is a list of `Glyph`s: characters, which stand for themselves,
and leaves. It is spelled out (`spelledOut`) in as many ways as leaves can be shown, by their tokens or by
references for example, and what a stage does to one spelling of the glyphs is another spelling of them.

Where every leaf stands apart from the characters of tokens (`Glyph.Apart`), a function that treats runs of
these characters apart has to be known on single leaves only (`spelledOut_of_treatsApart`). So **substitution
takes the tokens of leaves to references** (`substituted_spelledOut`). Naming the item of a loop is done
reference by reference, too (`nameItem_spelledOut`).
-/

namespace Stencil.Template

open Text

/-- A character of a text, or a leaf of data in it. -/
inductive Glyph where
  /-- A character. -/
  | char (c : Char)
  /-- A leaf, by the way to it. -/
  | leaf (way : Path)
  deriving DecidableEq

namespace Glyph

/-- The text of a glyph. -/
def spell (shown : Path → Text) : Glyph → Text
  | char c => [c]
  | leaf way => shown way

/-- Whether a glyph is a leaf. -/
def isLeaf : Glyph → Bool
  | char _ => false
  | leaf _ => true

/-- Whether a glyph is a character that no token has. -/
def isGap : Glyph → Bool
  | char c => !isTokenChar c
  | leaf _ => false

/-- That neither of two neighbours is a leaf, or the other one is a character that no token has. -/
def Apart (a b : Glyph) : Prop := (a.isLeaf = true → b.isGap = true) ∧ (b.isLeaf = true → a.isGap = true)

instance : DecidableRel Apart := fun a b =>
  inferInstanceAs (Decidable ((a.isLeaf = true → b.isGap = true) ∧ (b.isLeaf = true → a.isGap = true)))

end Glyph

/-- The text of glyphs, with leaves shown in some way. -/
def spelledOut (shown : Path → Text) (glyphs : List Glyph) : Text := glyphs.flatMap (Glyph.spell shown)

/-- The text of glyphs without the leaves. -/
def constants (glyphs : List Glyph) : Text := spelledOut (fun _ => []) glyphs

/-- Glyphs without leaves. -/
def plainGlyphs (t : Text) : List Glyph := t.map .char

/-- Glyphs in which no leaf has a neighbour that a token could have, or that is a leaf. -/
def Separated (glyphs : List Glyph) : Prop := glyphs.IsChain Glyph.Apart

instance : DecidablePred Separated := fun glyphs => inferInstanceAs (Decidable (glyphs.IsChain Glyph.Apart))

section Spelled

variable {shown : Path → Text}

@[simp] theorem spelledOut_nil : spelledOut shown [] = [] := rfl

@[simp] theorem spelledOut_char (c : Char) (glyphs : List Glyph) :
    spelledOut shown (.char c :: glyphs) = c :: spelledOut shown glyphs := rfl

@[simp] theorem spelledOut_leaf (way : Path) (glyphs : List Glyph) :
    spelledOut shown (.leaf way :: glyphs) = shown way ++ spelledOut shown glyphs := rfl

/-- Glyphs side by side are spelled out one behind the other. -/
@[simp] theorem spelledOut_append (u v : List Glyph) :
    spelledOut shown (u ++ v) = spelledOut shown u ++ spelledOut shown v := List.flatMap_append

/-- The glyphs of a text spell out the text. -/
@[simp] theorem spelledOut_plainGlyphs (t : Text) : spelledOut shown (plainGlyphs t) = t := by
  induction t with
  | nil => rfl
  | cons c t ih => exact congrArg (c :: ·) ih

/-- The glyphs of a text have no leaf. -/
theorem leaf_not_mem_plainGlyphs {way : Path} {t : Text} : Glyph.leaf way ∉ plainGlyphs t := by
  simp [plainGlyphs]

/-- A character of the text is one of the constants, or of a leaf. -/
theorem mem_spelledOut {c : Char} {glyphs : List Glyph} (h : c ∈ spelledOut shown glyphs) :
    c ∈ constants glyphs ∨ ∃ way, .leaf way ∈ glyphs ∧ c ∈ shown way := by
  induction glyphs with
  | nil => cases h
  | cons m glyphs ih =>
    cases m with
    | char d =>
      rcases List.mem_cons.mp h with rfl | h
      · exact .inl List.mem_cons_self
      · exact (ih h).imp (List.mem_cons_of_mem d) fun ⟨way, hway, hc⟩ =>
          ⟨way, List.mem_cons_of_mem _ hway, hc⟩
    | leaf way =>
      rcases List.mem_append.mp h with h | h
      · exact .inr ⟨way, List.mem_cons_self, h⟩
      · exact (ih h).imp id fun ⟨way, hway, hc⟩ => ⟨way, List.mem_cons_of_mem _ hway, hc⟩

/-- Only the leaves that are there matter. -/
theorem spelledOut_congr {shown' : Path → Text} {glyphs : List Glyph}
    (h : ∀ way, .leaf way ∈ glyphs → shown way = shown' way) :
    spelledOut shown glyphs = spelledOut shown' glyphs := by
  refine congrArg List.flatten (List.map_congr_left fun m hm => ?_)
  cases m with
  | char c => rfl
  | leaf way => exact h way hm

end Spelled

/-! ### Separated glyphs -/

section Separated

variable {glyphs : List Glyph}

/-- The glyphs of a text are separated, as there is no leaf to separate. -/
theorem separated_plainGlyphs (t : Text) : Separated (plainGlyphs t) := by
  refine List.Pairwise.isChain (List.pairwise_map.mpr (List.pairwise_of_forall fun _ _ => ?_))
  exact ⟨nofun, nofun⟩

/-- A character that no token has keeps what is before it apart from what is behind it. -/
theorem Separated.append_cons {u v : List Glyph} {c : Char} (hu : Separated u) (hc : isTokenChar c = false)
    (hv : Separated v) : Separated (u ++ .char c :: v) := by
  have hgap : (Glyph.char c).isGap = true := by rw [Glyph.isGap, hc, Bool.not_false]
  refine List.isChain_append.mpr ⟨hu, ?_, ?_⟩
  · refine List.isChain_cons.mpr ⟨fun m _ => ⟨nofun, fun _ => hgap⟩, hv⟩
  · intro m _ d hd
    obtain rfl := Option.some.inj hd
    exact ⟨fun _ => hgap, nofun⟩

end Separated

/-! ### Functions that treat runs apart -/

section TreatsApart

variable {f : Text → Text} (hf : TreatsApart isTokenChar f) {lead : Text}
  (hconstant : ∀ u, ¬ lead <:+: u → f u = u) {old new : Path → Text}

include hf hconstant

private theorem spelledOut_behind {glyphs : List Glyph} (hseparated : Separated glyphs)
    (hleaf : ∀ way, .leaf way ∈ glyphs → f (old way) = new way) :
    (∀ u, ((∃ way, .leaf way ∈ glyphs.head?) → u = []) → ¬ lead <:+: u ++ constants glyphs →
      f (u ++ spelledOut old glyphs) = u ++ spelledOut new glyphs) ∧
    ∀ way, (∀ m ∈ glyphs.head?, m.isGap = true) → f (old way) = new way → ¬ lead <:+: constants glyphs →
      f (old way ++ spelledOut old glyphs) = new way ++ spelledOut new glyphs := by
  induction glyphs with
  | nil =>
    refine ⟨fun u _ hu => ?_, fun way _ hway _ => ?_⟩
    · rw [spelledOut_nil, spelledOut_nil, List.append_nil]
      exact hconstant u (by simpa [constants] using hu)
    · rw [spelledOut_nil, spelledOut_nil, List.append_nil, List.append_nil, hway]
  | cons m glyphs ih =>
    obtain ⟨hnext, hrest⟩ := List.isChain_cons.mp hseparated
    obtain ⟨hbehind, hbehindLeaf⟩ := ih hrest fun way hway => hleaf way (List.mem_cons_of_mem _ hway)
    cases m with
    | leaf way =>
      have hgap : ∀ m ∈ glyphs.head?, m.isGap = true := fun m hm => (hnext m hm).1 rfl
      refine ⟨fun u hu hunmarked => ?_, fun _ hm _ _ => absurd (hm _ rfl) Bool.false_ne_true⟩
      obtain rfl := hu ⟨way, rfl⟩
      exact hbehindLeaf way hgap (hleaf way List.mem_cons_self) hunmarked
    | char c =>
      have hsplit : ∀ u, ¬ lead <:+: u ++ constants (.char c :: glyphs) →
          ¬ lead <:+: u ∧ ¬ lead <:+: constants glyphs := by
        refine fun u hu => ⟨fun h => hu (h.trans (List.prefix_append _ _).isInfix), fun h => hu ?_⟩
        exact h.trans ((List.suffix_cons c _).trans (List.suffix_append u _)).isInfix
      -- a character of tokens goes into the run in front, any other one ends it
      by_cases hc : isTokenChar c = true
      · refine ⟨fun u _ hunmarked => ?_, fun way hm _ _ => ?_⟩
        · have hnone : (∃ way, .leaf way ∈ glyphs.head?) → u ++ [c] = [] := by
            rintro ⟨way, hway⟩
            have hgap := (hnext _ hway).2 rfl
            rw [Glyph.isGap, hc] at hgap
            cases hgap
          have hmore := hbehind (u ++ [c]) hnone (by simpa [constants] using hunmarked)
          simpa using hmore
        · have hgap := hm _ rfl
          rw [Glyph.isGap, hc] at hgap
          cases hgap
      · have hc : isTokenChar c = false := by simpa using hc
        refine ⟨fun u _ hunmarked => ?_, fun way _ hway hunmarked => ?_⟩
        · obtain ⟨hu, hglyphs⟩ := hsplit u hunmarked
          rw [spelledOut_char, spelledOut_char, hf c hc, hconstant u hu]
          exact congrArg (u ++ c :: ·) (hbehind [] (fun _ => rfl) hglyphs)
        · obtain ⟨-, hglyphs⟩ := hsplit [] hunmarked
          rw [spelledOut_char, spelledOut_char, hf c hc, hway]
          exact congrArg (new way ++ c :: ·) (hbehind [] (fun _ => rfl) hglyphs)

/-- **Leaf by leaf.** A function that treats runs apart and keeps texts without a beginning of tokens takes
one spelling of separated glyphs to another one if it does so for every leaf by itself. -/
theorem spelledOut_of_treatsApart {glyphs : List Glyph} (hseparated : Separated glyphs)
    (hunmarked : ¬ lead <:+: constants glyphs)
    (hleaf : ∀ way, .leaf way ∈ glyphs → f (old way) = new way) :
    f (spelledOut old glyphs) = spelledOut new glyphs :=
  (spelledOut_behind hf hconstant hseparated hleaf).1 [] (fun _ => rfl) hunmarked

end TreatsApart

/-- **Substitution** takes the tokens of leaves to the references to their paths. -/
theorem substituted_spelledOut (shape : Marker.Shape) {tokens : List Row}
    (hshape : ∀ c ∈ shape.lead.toList ++ shape.tail.toList, isTokenChar c = true)
    (hchars : ∀ row ∈ tokens, ∀ c ∈ row.1.toList, isTokenChar c = true)
    (hlead : ∀ row ∈ tokens, shape.lead.toList <+: row.1.toList) (hnodup : (tokens.map Prod.fst).Nodup)
    {glyphs : List Glyph} (hseparated : Separated glyphs)
    (hunmarked : ¬ shape.lead.toList <:+: constants glyphs) {token path : Path → String}
    (hbound : ∀ way, .leaf way ∈ glyphs → (token way, some (path way)) ∈ tokens)
    (hpath : ∀ way, .leaf way ∈ glyphs → ¬ shape.lead.toList <:+: (path way).toList) :
    substituted shape tokens (spelledOut (fun way => (token way).toList) glyphs) =
      spelledOut (fun way => reference (path way)) glyphs := by
  have hbrace : ∀ {c : Char}, isTokenChar c = false → c ∉ shape.lead.toList := fun hc hmem => by
    rw [hshape _ (List.mem_append_left _ hmem)] at hc
    cases hc
  have hapart : TreatsApart isTokenChar (substituted shape tokens) :=
    treatsApart_substituted (fun _ => id) (fun c hc => hshape c (List.mem_append_left _ hc))
      (fun c hc => hshape c (List.mem_append_right _ hc)) hchars
  refine spelledOut_of_treatsApart hapart (fun u hu => substituted_of_unmarked hlead hu) hseparated hunmarked
    fun way hway => ?_
  exact substituted_token hlead hnodup (hbound way hway) (hpath way hway) (hbrace (by decide))
    (hbrace (by decide))

/-! ### Naming the item -/

/-- Glyphs as a content, with a path for every leaf. -/
def contentOf (path : Path → Text) : List Glyph → Content
  | [] => .text []
  | .char c :: glyphs => (contentOf path glyphs).prepend [c]
  | .leaf way :: glyphs => .reference [] (path way) (contentOf path glyphs)

/-- The content of glyphs is written with a reference for every leaf. -/
theorem written_contentOf (path : Path → Text) (glyphs : List Glyph) :
    (contentOf path glyphs).written = spelledOut (fun way => braced (path way)) glyphs := by
  induction glyphs with
  | nil => rfl
  | cons m glyphs ih =>
    cases m with
    | char c => rw [contentOf, Content.written_prepend, ih, spelledOut_char, List.singleton_append]
    | leaf way => rw [contentOf, Content.written, ih, spelledOut_leaf, List.nil_append]

/-- Changing the paths of a content is changing those of its leaves. -/
theorem map_contentOf (g : Text → Text) (path : Path → Text) (glyphs : List Glyph) :
    (contentOf path glyphs).map id g = contentOf (fun way => g (path way)) glyphs := by
  induction glyphs with
  | nil => rfl
  | cons m glyphs ih =>
    cases m with
    | char c => rw [contentOf, Content.map_prepend, ih, contentOf]
    | leaf way => rw [contentOf, Content.map, ih, contentOf, id_eq]

private theorem everyRun_prepend {c d : Char} (hc : c ≠ d) {b : Content} (h : b.EveryRun (d ∉ ·)) :
    (b.prepend [c]).EveryRun (d ∉ ·) := by
  cases b <;> simp_all [Content.prepend, Content.EveryRun, Ne.symm]

/-- A character that is in no constant glyph is in no run of the content. -/
private theorem everyRun_contentOf (path : Path → Text) {d : Char} {glyphs : List Glyph}
    (h : d ∉ constants glyphs) : (contentOf path glyphs).EveryRun (d ∉ ·) := by
  induction glyphs with
  | nil => exact List.not_mem_nil
  | cons m glyphs ih =>
    cases m with
    | char c =>
      obtain ⟨hc, hrest⟩ := not_or.mp (List.mem_cons.not.mp h)
      exact everyRun_prepend (Ne.symm hc) (ih hrest)
    | leaf way => exact ⟨List.not_mem_nil, ih h⟩

/-- **Naming the item.** Between constants without a bracket the item is named in the path of every leaf by
itself. -/
theorem nameItem_spelledOut {array : Text} (harray : IsBare array) (name : Text) (path : Path → Text)
    {glyphs : List Glyph} (h : '[' ∉ constants glyphs) :
    nameItem array name (spelledOut (fun way => braced (path way)) glyphs) =
      spelledOut (fun way => braced (nameItem array name (path way))) glyphs := by
  have hruns : (contentOf path glyphs).EveryRun fun t => nameItem array name t = t :=
    (everyRun_contentOf path h).imp fun t ht => (itemless_of_bracket_not_mem ht).nameItem name
  rw [← written_contentOf, nameItem_written name harray, Content.map_eq_of_everyRun hruns, map_contentOf,
    written_contentOf]

end Stencil.Template
