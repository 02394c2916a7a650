import Stencil.Proofs.Template.Content
import Stencil.Proofs.Template.Stable

/-!
# Which references a loop renames

In a loop over `p`, the path of the item that stands for all items is `p.[0]`, and a reference to a part
of that item begins with it. `renamed` is such a reference with its beginning renamed; every other
reference stays.

The main statement is `lowerLoop_reference`: a loop looks at what is between braces by itself, and
**renames only beginnings, unless the path of the item recurs in the reference** (`Recurs`). To recur, it
has to come behind a character at which paths start, and that is every character but the ones of
words, a dot and a closing bracket. Keys are made of more characters than that: in the key `order-items`
a path starts behind the hyphen, so that a loop over `items` renames the tail of the key
(`lowerTags_orderItems_ne`). In references of words, dots and brackets
this happens inside a bracket only (`not_recurs`).
-/

namespace Stencil.Template

open Text

/-! ### Where a word starts a path -/

section StartsIn

variable {word name t : Text} {previous : Option Char}

/-- Somewhere in the text, the word starts a path. -/
def StartsIn (word : Text) (previous : Option Char) (t : Text) : Prop :=
  ∃ u v, t = u ++ (word ++ v) ∧ startsPath (u.getLast?.or previous) = true

theorem not_startsIn_nil (hword : word ≠ []) : ¬ StartsIn word previous [] := by
  rintro ⟨u, v, h, -⟩
  simp [hword] at h

theorem startsIn_cons_iff {c : Char} :
    StartsIn word previous (c :: t) ↔
      (startsPath previous = true ∧ word <+: c :: t) ∨ StartsIn word (some c) t := by
  constructor
  · rintro ⟨u, v, h, hstarts⟩
    cases u with
    | nil => exact .inl ⟨by simpa using hstarts, v, h.symm⟩
    | cons d u =>
      obtain ⟨rfl, rfl⟩ := List.cons.inj h
      exact .inr ⟨u, v, rfl, by rwa [← getLast?_cons_or]⟩
  · rintro (⟨hstarts, v, h⟩ | ⟨u, v, rfl, hstarts⟩)
    · exact ⟨[], v, h.symm, by simpa using hstarts⟩
    · exact ⟨c :: u, v, rfl, by rwa [getLast?_cons_or]⟩

/-- A word that starts no path at the front starts one behind some character, if it starts one. -/
theorem startsIn_iff_of_front (hfront : startsPath previous = true → ¬ word <+: t) :
    StartsIn word previous t ↔
      ∃ u c v, t = u ++ c :: (word ++ v) ∧ startsPath (some c) = true := by
  constructor
  · rintro ⟨u, v, rfl, hstarts⟩
    cases u using List.reverseRecOn with
    | nil => exact absurd (List.prefix_append word v) (hfront (by simpa using hstarts))
    | append_singleton u c _ => exact ⟨u, c, v, by simp, by simpa using hstarts⟩
  · rintro ⟨u, c, v, rfl, hstarts⟩
    exact ⟨u ++ [c], v, by simp, by simpa using hstarts⟩

/-- Every occurrence that is replaced makes the same difference to the length. -/
theorem exists_length_replaceStarts (hword : word ≠ []) (name : Text) (previous : Option Char)
    (t : Text) : ∃ n, (replaceStarts word name previous 0 t).length + n * word.length =
      t.length + n * name.length := by
  induction previous, t using replaceStarts_induction hword with
  | nil previous => exact ⟨0, by simp [replaceStarts]⟩
  | append_word previous v hstarts ih =>
    obtain ⟨n, hn⟩ := ih
    refine ⟨n + 1, ?_⟩
    rw [replaceStarts_append_word hstarts hword, List.length_append, List.length_append,
      Nat.add_mul, Nat.add_mul]
    omega
  | cons previous c t hkept ih =>
    obtain ⟨n, hn⟩ := ih
    refine ⟨n, ?_⟩
    rw [replaceStarts_cons hkept, List.length_cons, List.length_cons]
    omega

/-- **Unchanged texts.** Replacing a word by another one keeps a text exactly if the word starts no path
in it. -/
theorem replaceStarts_eq_self_iff (hword : word ≠ []) :
    replaceStarts word name previous 0 t = t ↔ ¬ StartsIn word previous t ∨ name = word := by
  induction previous, t using replaceStarts_induction hword with
  | nil previous => simp [replaceStarts, not_startsIn_nil hword]
  | append_word previous v hstarts ih =>
    have hin : StartsIn word previous (word ++ v) := ⟨[], v, rfl, by simpa using hstarts⟩
    rw [replaceStarts_append_word hstarts hword, or_iff_right (not_not.mpr hin)]
    constructor
    · intro hsame
      -- all that is replaced has the same length as the word, or the lengths would differ
      obtain ⟨n, hn⟩ := exists_length_replaceStarts hword name word.getLast? v
      have hlength := congrArg List.length hsame
      simp only [List.length_append] at hlength
      have htimes : (n + 1) * name.length = (n + 1) * word.length := by
        rw [Nat.add_mul, Nat.add_mul]
        omega
      exact (List.append_inj hsame (Nat.eq_of_mul_eq_mul_left n.succ_pos htimes)).1
    · rintro rfl
      rw [ih.mpr (.inr rfl)]
  | cons previous c t hkept ih =>
    have hfront : ¬ (startsPath previous = true ∧ word <+: c :: t) := fun h => hkept h.1 h.2
    rw [replaceStarts_cons hkept, List.cons_inj_right, ih, startsIn_cons_iff, or_iff_right hfront]

end StartsIn

/-! ### References in a loop -/

/-- A reference with the item that it begins with renamed, if it begins with that item. -/
def renamed (array name q : Text) : Text :=
  match after? (representative array) q with
  | some rest => name ++ rest
  | none => q

/-- Behind the item that a reference begins with, or anywhere if it begins otherwise, the path of the
item comes behind a character at which paths start. -/
def Recurs (array q : Text) : Prop :=
  ∃ u c v, (after? (representative array) q).getD q = u ++ c :: (representative array ++ v) ∧
    startsPath (some c) = true

/-- **Beginnings.** Naming the item in a reference is renaming its beginning, unless the path of the
item recurs in it. -/
theorem nameItem_eq_renamed_iff {array name q : Text} :
    nameItem array name q = renamed array name q ↔
      ¬ Recurs array q ∨ name = representative array := by
  have hne := representative_ne_nil array
  rw [nameItem, renamed, Recurs]
  cases hq : after? (representative array) q with
  | none =>
    have hfront := after?_eq_none_iff.mp hq
    rw [Option.getD_none, ← startsIn_iff_of_front fun _ => hfront]
    exact replaceStarts_eq_self_iff hne
  | some rest =>
    -- no path starts behind the bracket that the path of the item ends with
    obtain rfl := after?_eq_some_iff.mp hq
    have hlast : (representative array).getLast? = some ']' := by simp [representative]
    have hbracket : startsPath (some ']') = true → ¬ representative array <+: rest :=
      fun h => absurd h (by decide)
    rw [replaceStarts_append_word rfl hne, hlast, List.append_cancel_left_eq, Option.getD_some,
      ← startsIn_iff_of_front hbracket]
    exact replaceStarts_eq_self_iff hne

/-- **Plain keys.** In a reference of words, dots and brackets, the path of the item recurs only inside a
bracket. -/
theorem not_recurs {array q : Text} (hplain : ∀ c ∈ q, startsPath (some c) = true → c = '[')
    (hbracket : ¬ '[' :: representative array <:+: q) : ¬ Recurs array q := by
  rintro ⟨u, c, v, hbehind, hstarts⟩
  have hsuffix : (after? (representative array) q).getD q <:+ q := by
    cases hq : after? (representative array) q with
    | none => exact List.suffix_rfl
    | some rest =>
      rw [after?_eq_some_iff.mp hq]
      exact List.suffix_append _ rest
  rw [hbehind] at hsuffix
  obtain rfl := hplain c (hsuffix.subset (by simp)) hstarts
  exact hbracket (List.IsInfix.trans ⟨u, v, by simp⟩ hsuffix.isInfix)

/-- A usable path has none of the characters that tags are made with. -/
theorem isBare_of_isTerm {array : Text} (h : Condition.isTerm array = true) : IsBare array := by
  have hchars : ∀ c ∈ tagChars, Condition.isTermChar c = false := by decide
  exact fun c hc => Condition.not_mem_of_isTerm (hchars c hc) h

/-- **References.** A loop over a usable path puts the names of items into a reference in its body by
itself, and this renames the beginning of the reference only, unless the path of the item recurs in it.
Markup that is such a loop is lowered to what the loop is. -/
theorem lowerLoop_reference {l : Loop} (harray : Condition.isTerm l.path = true) {u q v : Text}
    (hbody : l.body = u ++ (braced q ++ v)) :
    let name := itemName l.name?
    lowerLoop l = loopOpening l.path l.name? ++ (nameItem l.path name u ++
        (braced (nameItem l.path name q) ++ (nameItem l.path name v ++ braced "/each".toList))) ∧
      (nameItem l.path name q = renamed l.path name q ↔
        ¬ Recurs l.path q ∨ name = representative l.path) ∧
      ∀ (h : PlainHead) (o : Outline), l = loopKind.hit h.toLoopHead o.template →
        o.EveryLoop PlainHead.IsUnspaced → ∀ journal, ∃ journal',
          lowerTags (Outline.loop h o .done).written journal = (.ok (lowerLoop l), journal') := by
  refine ⟨?_, nameItem_eq_renamed_iff, ?_⟩
  · rw [lowerLoop_eq, hbody, nameItem_braced _ (isBare_of_isTerm harray)]
    simp only [List.append_assoc]
  · rintro h o rfl ho journal
    have hpath : h.array = (loopKind.hit h.toLoopHead o.template).path :=
      (Markup.decodeReferences_escape h.array).symm
    rw [← hpath] at harray
    have hunspaced : h.IsUnspaced :=
      ⟨Condition.not_mem_of_isTerm (by decide) harray, Condition.not_mem_of_isTerm (by decide) harray⟩
    have hsteady : (Outline.loop h o .done).Steady := .inl ⟨hunspaced, ho, trivial⟩
    obtain ⟨journal', hlowered⟩ := Outline.lowerTags_written hsteady journal
    refine ⟨journal', ?_⟩
    rw [hlowered, lowerLoop_hit, Outline.template, Outline.template, List.append_nil]

/-- The head of a loop over lines. -/
def lineHead : PlainHead :=
  ⟨⟨"order.lines".toList, some "line".toList, by decide, by decide⟩, by decide, by decide⟩

/-- A cell for a part of each line, and a reference to lines of another list. -/
def lineCell : Outline :=
  .element ⟨"td", [], by decide, by decide, by decide, .inl rfl, by decide⟩
    (.reference "order.lines.[0].sku".toList (by decide) .done)
    (.reference "past.order.lines.[0].id".toList (by decide) .done)

theorem lowerLoop_lineCell :
    ¬ Recurs "order.lines".toList "order.lines.[0].sku".toList ∧
      nameItem "order.lines".toList "line".toList "order.lines.[0].sku".toList =
        renamed "order.lines".toList "line".toList "order.lines.[0].sku".toList ∧
      ∃ journal, lowerTags
          ("<hb-each array=\"order.lines\" itemVar=\"line\"><td>\x7b\x7border.lines.[0].sku\x7d\x7d</td>" ++
            "\x7b\x7bpast.order.lines.[0].id\x7d\x7d</hb-each>").toList [] =
        (.ok ("\x7b\x7b#each order.lines as |line|\x7d\x7d<td>\x7b\x7bline.sku\x7d\x7d</td>" ++
          "\x7b\x7bpast.order.lines.[0].id\x7d\x7d\x7b\x7b/each\x7d\x7d").toList, journal) := by
  obtain ⟨hloop, hnames, hmarkup⟩ :=
    lowerLoop_reference (l := loopKind.hit lineHead.toLoopHead lineCell.template) (by decide)
      (show _ = "<td>".toList ++ (braced "order.lines.[0].sku".toList ++
        "</td>\x7b\x7bpast.order.lines.[0].id\x7d\x7d".toList) by decide +kernel)
  have honce : ¬ Recurs "order.lines".toList "order.lines.[0].sku".toList :=
    not_recurs (by decide) (by decide)
  obtain ⟨journal, hlowered⟩ := hmarkup lineHead lineCell rfl ⟨trivial, trivial⟩ []
  rw [hloop] at hlowered
  exact ⟨honce, hnames.mpr (.inl honce), journal, hlowered⟩

/-- A loop over items, with a reference to another list, whose key ends like theirs. -/
def orderItems : Text :=
  "<hb-each array=\"items\">\x7b\x7border-items.[0].sku\x7d\x7d</hb-each>".toList

/-- **Longer keys.** A reference that does not begin with the path of the item is renamed all the same,
in the middle of its first key. -/
theorem lowerTags_orderItems_ne :
    (Condition.isTerm "items".toList = true ∧ Condition.isTerm "order-items.[0].sku".toList = true) ∧
      ¬ representative "items".toList <+: "order-items.[0].sku".toList ∧
      (lowerTags orderItems []).1.toOption =
        some "\x7b\x7b#each items\x7d\x7d\x7b\x7border-this.sku\x7d\x7d\x7b\x7b/each\x7d\x7d".toList ∧
      (lowerTags orderItems []).1.toOption ≠
        some "\x7b\x7b#each items\x7d\x7d\x7b\x7border-items.[0].sku\x7d\x7d\x7b\x7b/each\x7d\x7d".toList := by
  decide +kernel

end Stencil.Template
