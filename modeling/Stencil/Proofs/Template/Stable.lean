import Stencil.Proofs.Template.Naming
import Stencil.Proofs.Template.Progress

/-!
# Lowering a lowered text

All conditionals are lowered before the first loop is, and a loop writes text of its own into the
template: the array and the name of the item, decoded, and the name again wherever the body names
the item that stands for all items. So a loop may leave a conditional behind that nobody lowers any
more, and lowering the result once more is not the same as lowering once (`lowered_encoded_ne`).

A loop is inert if it does not: no tag of a conditional is in its array, its item has a name without
angle brackets, and the item that stands for all items is nowhere in its body where a tag gets its
name from (`Loop.IsInert`). The main statement is `lowerTags_stable`: **if every loop that is
lowered is inert, the result is lowered to itself.** That a loop of this sort brings no conditional
about is said by the reading of `Template.Progress`: behind its block no more has come by than
behind its tags (`progress_lowerLoop_le`).
-/

namespace Stencil.Template

open Text

/-! ### Naming the item -/

/-- How the names of tags of conditionals begin, where a path can begin behind it. -/
def tagStems : List Text := [['<'], ['<', '/'], pseudoOpening, pseudoClosing]

section Naming

variable {path name t u : Text} {a : Seen}

/-- Naming an item keeps a word at the front if no path begins while the word is read. -/
private theorem prefix_replaceStarts_iff {word : Text} {previous : Option Char}
    (h : ∀ x rest, x <+: word → x ≠ word → t = x ++ rest →
      startsPath (x.getLast?.or previous) = true → ¬ path <+: rest) :
    word <+: replaceStarts path name previous 0 t ↔ word <+: t := by
  induction word generalizing previous t with
  | nil => simp
  | cons w ws ih =>
    cases t with
    | nil => rfl
    | cons c cs =>
      have hhere : startsPath previous = true → ¬ path <+: c :: cs := fun hstarts =>
        h [] (c :: cs) List.nil_prefix (by simp) rfl (by simpa using hstarts)
      rw [replaceStarts_cons hhere, List.cons_prefix_cons, List.cons_prefix_cons]
      refine and_congr_right fun hw => ih fun x rest hx hne ht hstarts => ?_
      have hpre : c :: x <+: w :: ws := by
        rw [hw, List.cons_prefix_cons]
        exact ⟨rfl, hx⟩
      refine h (c :: x) rest hpre ?_ (by rw [ht]; rfl) ?_
      · simpa [hw] using hne
      · rwa [getLast?_cons_or]

/-- The name of a tag of a conditional stays as it is if the item is not named in it. -/
private theorem prefix_replaceStarts_tag {word : Text}
    (hword : ∀ x ∈ word.inits, x ≠ word → startsPath (x.getLast?.or (some '<')) = true →
      '<' :: x ∈ tagStems)
    (h : ∀ stem ∈ tagStems, ¬ stem ++ path <:+: '<' :: t) :
    '<' :: word <+: '<' :: replaceStarts path name (some '<') 0 t ↔ '<' :: word <+: '<' :: t := by
  rw [List.cons_prefix_cons, List.cons_prefix_cons]
  refine and_congr_right fun _ => prefix_replaceStarts_iff fun x rest hx hne ht hstarts hp => ?_
  obtain ⟨v, rfl⟩ := hp
  refine h _ (hword x ((List.mem_inits x word).mpr hx) hne hstarts) ⟨[], v, ?_⟩
  rw [ht]
  simp

/-- **Naming the item.** With the item named, no more has come by than before. -/
private theorem progress_replaceStarts_le {ws : Text} (hpath : path = ws ++ [']'])
    (hopening : ¬ ifOpening <:+: path) (hclosing : ¬ ifClosing <:+: path)
    (hname : '<' ∉ name ∧ '>' ∉ name) (previous : Option Char)
    (h : ∀ stem ∈ tagStems, ¬ stem ++ path <:+: t) :
    progress a (replaceStarts path name previous 0 t) ≤ progress a t := by
  have hne : path ≠ [] := by simp [hpath]
  induction previous, t using replaceStarts_induction hne generalizing a with
  | nil => exact le_refl _
  | append_word previous v hstarts ih =>
    have hrest : ∀ stem ∈ tagStems, ¬ stem ++ path <:+: v := fun stem hstem hv =>
      h stem hstem (hv.trans (List.suffix_append path v).isInfix)
    have hapart : Apart path v := by
      rw [hpath]
      exact apart_concat (by decide) ws v
    rw [replaceStarts_append_word hstarts hne, progress_append_of_not_mem hname.1 hname.2,
      progress_append hapart]
    calc progress a (replaceStarts path name path.getLast? 0 v)
        ≤ progress a v := ih hrest
      _ ≤ progress (progress a path) v :=
        progress_mono (progress_of_absent hopening hclosing a).1 v
  | cons previous c cs hkept ih =>
    have hrest : ∀ stem ∈ tagStems, ¬ stem ++ path <:+: cs := fun stem hstem hv =>
      h stem hstem (hv.trans (List.suffix_cons c cs).isInfix)
    rw [replaceStarts_cons hkept, progress, progress]
    have hsame : a.advance (c :: replaceStarts path name (some c) 0 cs) = a.advance (c :: cs) := by
      by_cases hangle : c = '<'
      · subst hangle
        refine Seen.advance_congr ?_ ?_ rfl
        · rw [ifOpening_eq]
          exact prefix_replaceStarts_tag (by decide) h
        · rw [ifClosing_eq]
          exact prefix_replaceStarts_tag (by decide) h
      · by_cases hend : c = '>'
        · rw [hend, Seen.advance_end, Seen.advance_end]
        · rw [Seen.advance_cons hangle hend, Seen.advance_cons hangle hend]
    rw [hsame]
    exact ih hrest

end Naming

/-! ### Inert loops -/

/-- The path of the array of a loop. -/
def Loop.path (l : Loop) : Text := decodeReferences l.array

/-- The name of the item of a loop, if it has one. -/
def Loop.name? (l : Loop) : Option Text :=
  (l.itemVar.map decodeReferences).filter fun name => !name.isEmpty

/-- A loop that leaves no conditional behind: no tag of a conditional is in its array, the name of
its item is without angle brackets, and no tag of its body gets its name from the item. -/
def Loop.IsInert (l : Loop) : Prop :=
  (¬ ifOpening <:+: l.path ∧ ¬ ifClosing <:+: l.path) ∧
    ('<' ∉ itemName l.name? ∧ '>' ∉ itemName l.name?) ∧
    ∀ stem ∈ tagStems, ¬ stem ++ representative l.path <:+: l.body

instance : DecidablePred Loop.IsInert := fun l =>
  inferInstanceAs (Decidable ((¬ ifOpening <:+: l.path ∧ ¬ ifClosing <:+: l.path) ∧
    ('<' ∉ itemName l.name? ∧ '>' ∉ itemName l.name?) ∧
    ∀ stem ∈ tagStems, ¬ stem ++ representative l.path <:+: l.body))

theorem lowerLoop_eq (l : Loop) :
    lowerLoop l = loopOpening l.path l.name? ++ nameItem l.path (itemName l.name?) l.body ++
      braced "/each".toList := rfl

/-- A tag that is not in a path is not in the path of an item either. -/
private theorem absent_representative {word path : Text} (hangle : '<' ∈ word) (hdot : '.' ∉ word)
    (h : ¬ word <:+: path) : ¬ word <:+: representative path := by
  intro hinfix
  rcases infix_of_infix_append_cons (u := path) (v := ['[', '0', ']']) (c := '.')
    (by simpa [representative] using hinfix) hdot with hp | hp
  · exact h hp
  · exact absurd (hp.subset hangle) (by decide)

/-- Around the array, the opening tag of a loop is without angle brackets. -/
private theorem exists_loopOpening (path : Text) {name? : Option Text}
    (hname : ∀ name ∈ name?, '<' ∉ name ∧ '>' ∉ name) :
    ∃ c after, loopOpening path name? = "\x7b\x7b#each ".toList ++ (path ++ c :: after) ∧
      (c ∉ ifOpening.tail ∧ c ∉ ifClosing.tail) ∧ '<' ∉ c :: after ∧ '>' ∉ c :: after := by
  cases name? with
  | none => exact ⟨'\x7d', ['\x7d'], by simp [loopOpening, braced], by decide, by decide, by decide⟩
  | some name =>
    obtain ⟨hopen, hend⟩ := hname name rfl
    refine ⟨' ', "as |".toList ++ name ++ ['|', '\x7d', '\x7d'], by simp [loopOpening, braced],
      by decide, ?_, ?_⟩
    · simp [hopen]
    · simp [hend]

/-- The block of a loop is read as its path and its body, if its name has no angle brackets. -/
private theorem progress_lowerLoop {l : Loop} (hname : ∀ name ∈ l.name?, '<' ∉ name ∧ '>' ∉ name)
    (a : Seen) : progress a (lowerLoop l) =
      progress (progress a l.path) (nameItem l.path (itemName l.name?) l.body) := by
  obtain ⟨c, after, hloop, hc, hopen, hend⟩ := exists_loopOpening l.path hname
  have hblock : lowerLoop l = "\x7b\x7b#each ".toList ++ (l.path ++ c :: after ++
      (nameItem l.path (itemName l.name?) l.body ++ braced "/each".toList)) := by
    rw [lowerLoop_eq, hloop]
    simp
  have hlast : ∀ b, progress b (braced "/each".toList) = b := fun b => by
    have hall := progress_append_of_not_mem (a := b) (u := braced "/each".toList) (v := [])
      (by decide) (by decide)
    rwa [List.append_nil] at hall
  have hbrace : Apart (nameItem l.path (itemName l.name?) l.body) (braced "/each".toList) :=
    apart_cons (by decide) _ _
  rw [hblock, progress_append_of_not_mem (by decide) (by decide), List.append_assoc,
    List.cons_append, progress_append (apart_cons hc l.path _), ← List.cons_append,
    progress_append_of_not_mem hopen hend, progress_append hbrace, hlast]

/-- **Inert loops.** Behind the block of an inert loop no more of a conditional has come by than
behind the loop as it is written. -/
private theorem progress_lowerLoop_le {l : Loop} (h : l.IsInert) (inside : Text) (a : Seen) :
    progress a (lowerLoop l) ≤
      progress a (eachOpening ++ inside ++ ['>'] ++ l.body ++ eachClosing) := by
  obtain ⟨⟨hopening, hclosing⟩, hname, hstems⟩ := h
  have hvar : ∀ name ∈ l.name?, '<' ∉ name ∧ '>' ∉ name := by
    intro name hmem
    rw [Option.mem_def.mp hmem] at hname
    exact hname
  have hitem : ∀ b, progress b (nameItem l.path (itemName l.name?) l.body) ≤ progress b l.body :=
    have hrepresentative : representative l.path = (l.path ++ ['.', '[', '0']) ++ [']'] := by
      simp [representative]
    fun b => progress_replaceStarts_le hrepresentative
      (absent_representative (by decide) (by decide) hopening)
      (absent_representative (by decide) (by decide) hclosing) hname none hstems
  have hpath : progress a l.path ≤ a.ended := (progress_of_absent hopening hclosing a).2
  have htag : a.ended ≤ progress a (eachOpening ++ inside ++ ['>']) := ended_le_progress a _
  have hend : ∀ b, b ≤ progress b eachClosing := fun b =>
    (progress_of_absent (by decide) (by decide) b).1
  -- the tag of the loop is read further than its path
  calc progress a (lowerLoop l)
      = progress (progress a l.path) (nameItem l.path (itemName l.name?) l.body) :=
      progress_lowerLoop hvar a
    _ ≤ progress (progress a l.path) l.body := hitem _
    _ ≤ progress (progress a (eachOpening ++ inside ++ ['>'])) l.body :=
      progress_mono (hpath.trans htag) l.body
    _ ≤ progress (progress (progress a (eachOpening ++ inside ++ ['>'])) l.body) eachClosing :=
      hend _
    _ = progress a (eachOpening ++ inside ++ ['>'] ++ l.body ++ eachClosing) := by
      have hclose : Apart l.body eachClosing := by
        rw [eachClosing_eq]
        exact apart_cons (by decide) _ _
      rw [List.append_assoc (eachOpening ++ inside ++ ['>']),
        progress_append (apart_concat (by decide) _ _), progress_append hclose]

/-- **One pass.** A pass over inert loops brings no more of a conditional about. -/
theorem Passed.progress_le {t t' : Text} {found : List Loop}
    (h : Passed loop? lowerLoop t t' found) (hinert : ∀ l ∈ found, l.IsInert) (a : Seen) :
    progress a t' ≤ progress a t := by
  have hhead : ∀ t l rest, loop? t = some (l, rest) → t.head? = some '<' := by
    intro t l rest hl
    obtain ⟨inside, rfl⟩ := exists_of_loop? hl
    rw [eachOpening_eq]
    rfl
  have hlower : ∀ l : Loop, (lowerLoop l).head? = some '\x7b' := by
    intro l
    rw [lowerLoop_eq]
    cases l.name? <;> rfl
  induction h generalizing a with
  | nil => exact le_refl _
  | @char c t t' found none rest ih =>
    -- a tag of conditionals has neither character that loops and their blocks begin with
    have same : ∀ {word : Text}, '<' ∉ word → '\x7b' ∉ word → ('<' :: word <+: c :: t' ↔
        '<' :: word <+: c :: t) := fun hc hd => by
      rw [List.cons_prefix_cons, List.cons_prefix_cons, rest.prefix_iff hhead hlower hc hd]
    have hsame : a.advance (c :: t') = a.advance (c :: t) := by
      refine Seen.advance_congr ?_ ?_ rfl
      · rw [ifOpening_eq]
        exact same (by decide) (by decide)
      · rw [ifClosing_eq]
        exact same (by decide) (by decide)
    rw [progress, progress, hsame]
    exact ih hinert _
  | @hit x t t' l found _ taken rest ih =>
    obtain ⟨inside, hx⟩ := exists_of_loop? taken
    obtain rfl := List.append_cancel_right hx
    have hloop := progress_lowerLoop_le (hinert l (by simp)) inside a
    -- loops and their blocks end with characters that no tag of conditionals goes on behind
    have hbefore : ∀ v,
        Apart (eachOpening ++ inside ++ ['>'] ++ l.body ++ eachClosing) v := fun v => by
      have hends : eachClosing = "</hb-each".toList ++ ['>'] := by decide
      rw [hends, ← List.append_assoc]
      exact apart_concat (by decide) _ v
    have hbehind : ∀ v, Apart (lowerLoop l) v := fun v => by
      have hends : braced "/each".toList = "\x7b\x7b/each\x7d".toList ++ ['\x7d'] := by decide
      rw [lowerLoop_eq, hends, ← List.append_assoc]
      exact apart_concat (by decide) _ v
    rw [progress_append (hbehind t'), progress_append (hbefore t)]
    calc progress (progress a (lowerLoop l)) t'
        ≤ progress (progress a (lowerLoop l)) t := ih (fun l hl => hinert l (by simp [hl])) _
      _ ≤ _ := progress_mono hloop t

/-! ### Lowering twice -/

/-- Lowering a text comes to an end: no conditional is left when the loops' turn comes, and no loop
at the end. -/
def Converges (t : Text) : Prop :=
  pass? conditional? lowerConditional (lowerConditionals t).1 = none ∧
    pass? loop? lowerLoop (lowered t) = none

instance : DecidablePred Converges := fun t =>
  inferInstanceAs (Decidable (pass? conditional? lowerConditional (lowerConditionals t).1 = none ∧
    pass? loop? lowerLoop (lowered t) = none))

theorem pass?_conditional?_eq_none_iff {t : Text} :
    pass? conditional? lowerConditional t = none ↔ progress 0 t < 3 := by
  have hlt : ∀ {a : Seen}, a < 3 ↔ ¬ a = 3 := by decide
  rw [pass?_eq_none_iff, hlt, progress_eq_whole_iff]
  simp

/-- A text in which nothing is recognised is lowered to itself, and nothing is written down. -/
theorem lowerTags_of_pass?_eq_none {t : Text}
    (hconditional : pass? conditional? lowerConditional t = none)
    (hloop : pass? loop? lowerLoop t = none) (journal : Journal) :
    lowerTags t journal = (.ok t, journal) := by
  have hdecided : lowerConditionals t = (t, []) := settle_of_pass?_eq_none hconditional _
  have hlowered : lowerLoops t = (t, []) := lowerLoops_eq (n := 0) hloop
  rw [lowerTags, lowered, hdecided, hlowered]
  rfl

/-- Work that has a result has one at every step. -/
private theorem exists_of_bind_eq_ok {α β : Type} {x : Work α} {f : α → Work β} {b : β}
    {journal journal' : Journal} (h : (x >>= f) journal = (.ok b, journal')) :
    ∃ a between, f a between = (.ok b, journal') := by
  simp only [bind, ExceptT.bind, ExceptT.mk, StateT.bind] at h
  cases hx : x journal with
  | mk result between =>
    rw [hx] at h
    cases result with
    | error failure => cases h
    | ok a => exact ⟨a, between, h⟩

/-- What lowering a text gives, if it gives a result, is the lowered text. -/
theorem eq_lowered_of_lowerTags {t y : Text} {journal journal' : Journal}
    (h : lowerTags t journal = (.ok y, journal')) : y = lowered t := by
  obtain ⟨-, noted, h⟩ := exists_of_bind_eq_ok h
  obtain ⟨-, noted', h⟩ := exists_of_bind_eq_ok h
  obtain ⟨hy, -⟩ := Prod.mk.inj h
  exact (Except.ok.inj hy).symm

/-- **Stable.** If lowering a text comes to an end with a result, and every loop that is lowered is
inert, then the result is lowered to itself. -/
theorem lowerTags_stable {t y : Text} {journal journal' : Journal}
    (h : lowerTags t journal = (.ok y, journal')) (hends : Converges t)
    (hinert : ∀ l ∈ (lowerLoops (lowerConditionals t).1).2, l.IsInert) (again : Journal) :
    lowerTags y again = (.ok y, again) := by
  obtain rfl := eq_lowered_of_lowerTags h
  obtain ⟨hconditional, hloop⟩ := hends
  have hnone : progress 0 (lowered t) < 3 :=
    lowerLoops_keeps (P := fun t => progress 0 t < 3) consumes_loop?
      (fun hpassed hinert hlt => lt_of_le_of_lt (hpassed.progress_le hinert 0) hlt)
      (pass?_conditional?_eq_none_iff.mp hconditional) hinert
  exact lowerTags_of_pass?_eq_none (pass?_conditional?_eq_none_iff.mpr hnone) hloop again

/-- Two loops, one in the other, with an element and a conditional in them. -/
def nestedRows : Text :=
  ("<hb-each array=\"rows\" itemVar=\"row\"><hb-each array=\"rows.[0].cells\"><td>" ++
    "<hb-if condition=\"a &amp;&amp; b\">\x7b\x7brows.[0].id\x7d\x7d</hb-if></td></hb-each></hb-each>").toList

theorem lowerTags_nestedRows :
    ∃ y journal, lowerTags nestedRows [] = (.ok y, journal) ∧ Converges nestedRows ∧
      (∀ l ∈ (lowerLoops (lowerConditionals nestedRows).1).2, l.IsInert) ∧
      lowerTags y [] = (.ok y, []) := by
  -- one evaluation for all three, which reads the literal once
  have hchecked : Converges nestedRows ∧
      (∀ l ∈ (lowerLoops (lowerConditionals nestedRows).1).2, l.IsInert) ∧
      (lowerTags nestedRows []).1.toOption.isSome = true := by decide +kernel
  obtain ⟨hends, hinert, hresult⟩ := hchecked
  cases hlowered : lowerTags nestedRows [] with
  | mk result journal =>
    rw [hlowered] at hresult
    cases result with
    | error failure => simp [Except.toOption] at hresult
    | ok y => exact ⟨y, journal, rfl, hends, hinert, lowerTags_stable hlowered hends hinert []⟩

/-- A loop over an encoded conditional. -/
def encoded : Text :=
  ("<hb-each array=\"&lt;hb-if condition=&quot;a&quot;&gt;b&lt;/hb-if&gt;\">x</hb-each>").toList

/-- **Encoded conditionals.** The decoded array is a conditional in the template, which is lowered
when the template is lowered once more. -/
theorem lowered_encoded_ne :
    (lowerTags encoded []).1.toOption =
        some "\x7b\x7b#each <hb-if condition=\"a\">b</hb-if>\x7d\x7dx\x7b\x7b/each\x7d\x7d".toList ∧
      Converges encoded ∧ lowered (lowered encoded) ≠ lowered encoded := by
  decide +kernel

end Stencil.Template
