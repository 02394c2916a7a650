import Stencil.Proofs.Template.Layout
import Stencil.Proofs.Template.Pass

/-!
# Naming the item

Lowering a loop replaces the path of the item that stands for all items, wherever it starts a path. It
is replaced in the text of the body, tags included, and so it may make a pseudo-tag out of the tag of
an element: behind the angle bracket of a tag, whose text begins like the path, comes the name of the
item then.

Two conditions keep that from happening, each with an invariant of the text that naming an item
preserves. If the path has no space and no `>` in it, the names of tags stay (`Tight.nameItem`). If the
name does not begin with `h` or `/`, it never completes a pseudo-tag (`Untagged.nameItem`).
-/

namespace Stencil.Template

open Text

/-! ### Replacing the starts of paths -/

section ReplaceStarts

variable {word name : Text}

/-- Before what comes behind a text stands its last character, or what stood before it. -/
theorem getLast?_cons_or (c : Char) (u : Text) (previous : Option Char) :
    (c :: u).getLast?.or previous = u.getLast?.or (some c) := by
  cases u <;> simp [List.getLast?_cons]

theorem replaceStarts_skip (previous : Option Char) (u v : Text) :
    replaceStarts word name previous u.length (u ++ v) =
      replaceStarts word name (u.getLast?.or previous) 0 v := by
  induction u generalizing previous with
  | nil => rfl
  | cons c cs ih =>
    rw [List.cons_append, List.length_cons, replaceStarts, ih, getLast?_cons_or]

/-- Where the word starts a path, it is replaced. -/
theorem replaceStarts_append_word {previous : Option Char} (h : startsPath previous = true)
    (hword : word ≠ []) (v : Text) :
    replaceStarts word name previous 0 (word ++ v) =
      name ++ replaceStarts word name word.getLast? 0 v := by
  cases word with
  | nil => exact absurd rfl hword
  | cons c cs =>
    have hstarts : startsWith (c :: cs) (c :: (cs ++ v)) = true :=
      startsWith_iff.mpr (List.prefix_append (c :: cs) v)
    rw [List.cons_append, replaceStarts, h, hstarts]
    simp only [Bool.and_self, if_true, List.length_cons, Nat.add_sub_cancel, replaceStarts_skip]
    rw [← getLast?_cons_or c cs none, Option.or_none]

/-- Where it does not, the text is kept. -/
theorem replaceStarts_cons {previous : Option Char} {c : Char} {t : Text}
    (h : startsPath previous = true → ¬ word <+: c :: t) :
    replaceStarts word name previous 0 (c :: t) =
      c :: replaceStarts word name (some c) 0 t := by
  rw [replaceStarts, if_neg]
  simpa [startsWith_iff] using h

/-- **Induction on replacing.** A text is read from its front: a word that starts a path is read at once,
and every other character by itself. -/
@[elab_as_elim]
theorem replaceStarts_induction {motive : Option Char → Text → Prop} (hword : word ≠ [])
    (nil : ∀ previous, motive previous [])
    (append_word : ∀ previous v, startsPath previous = true → motive word.getLast? v →
      motive previous (word ++ v))
    (cons : ∀ previous c t, (startsPath previous = true → ¬ word <+: c :: t) → motive (some c) t →
      motive previous (c :: t))
    (previous : Option Char) (t : Text) : motive previous t := by
  induction hlength : t.length using Nat.strong_induction_on generalizing previous t with
  | h length ih =>
    subst hlength
    by_cases hstart : startsPath previous = true ∧ word <+: t
    · obtain ⟨hstarts, v, rfl⟩ := hstart
      have hshorter : v.length < (word ++ v).length := by
        have := List.length_pos_of_ne_nil hword
        simp only [List.length_append]
        omega
      exact append_word previous v hstarts (ih v.length hshorter _ v rfl)
    · cases t with
      | nil => exact nil previous
      | cons c t =>
        exact cons previous c t (fun hs hp => hstart ⟨hs, hp⟩) (ih t.length (by simp) _ t rfl)

theorem replaceStarts_append_of_none {u v : Text} (h : EveryTail (fun s => ¬ word <+: s ++ v) u)
    (previous : Option Char) :
    replaceStarts word name previous 0 (u ++ v) =
      u ++ replaceStarts word name (u.getLast?.or previous) 0 v := by
  induction u generalizing previous with
  | nil => rfl
  | cons c cs ih =>
    have hc : ¬ word <+: c :: (cs ++ v) := h.1
    rw [List.cons_append, replaceStarts_cons fun _ => hc, ih h.2, getLast?_cons_or, List.cons_append]

/-- A word that starts nowhere in a text leaves it as it is. -/
theorem replaceStarts_of_none {u : Text} (h : EveryTail (fun s => ¬ word <+: s) u)
    (previous : Option Char) : replaceStarts word name previous 0 u = u := by
  have hkeep : replaceStarts word name previous 0 (u ++ []) = _ :=
    replaceStarts_append_of_none (h.imp fun s hs => by simpa using hs) previous
  simpa [replaceStarts] using hkeep

/-- What comes before matters only as far as a path can start behind it. -/
theorem replaceStarts_congr {p q : Option Char} (h : startsPath p = startsPath q) (t : Text) :
    replaceStarts word name p 0 t = replaceStarts word name q 0 t := by
  cases t with
  | nil => rfl
  | cons c cs => rw [replaceStarts, replaceStarts, h]

/-- What no occurrence reaches into is replaced in by itself. -/
private theorem replaceStarts_append {v v' : Text} (hwithin : ∀ s, word <+: s ++ v → word <+: s)
    (hv : ∀ previous, replaceStarts word name previous 0 v = v') (u : Text) (previous : Option Char)
    (skip : ℕ) (hskip : skip ≤ u.length) :
    replaceStarts word name previous skip (u ++ v) = replaceStarts word name previous skip u ++ v' := by
  induction u generalizing previous skip with
  | nil =>
    obtain rfl : skip = 0 := by simpa using hskip
    exact hv previous
  | cons d ds ih =>
    cases skip with
    | succ skip => exact ih (some d) skip (by simpa using hskip)
    | zero =>
      have hsame : startsWith word (d :: (ds ++ v)) = startsWith word (d :: ds) := by
        rw [Bool.eq_iff_iff, startsWith_iff, startsWith_iff]
        exact ⟨hwithin (d :: ds), fun hp => hp.trans (List.prefix_append (d :: ds) v)⟩
      rw [List.cons_append, replaceStarts, replaceStarts, hsame]
      split
      · next hstart =>
        have hlength : word.length ≤ ds.length + 1 := by
          simp only [Bool.and_eq_true, startsWith_iff] at hstart
          exact hstart.2.length_le
        rw [ih (some d) _ (by omega), List.append_assoc]
      · rw [ih (some d) 0 (Nat.zero_le _), List.cons_append]

/-- No occurrence reaches over a character that the word does not have. -/
theorem replaceStarts_append_cons {c : Char} (hc : c ∉ word) (hword : word ≠ []) (u v : Text)
    (previous : Option Char) (skip : ℕ) (hskip : skip ≤ u.length) :
    replaceStarts word name previous skip (u ++ c :: v) =
      replaceStarts word name previous skip u ++ c :: replaceStarts word name (some c) 0 v := by
  refine replaceStarts_append (fun s h => prefix_of_prefix_append_cons h hc) (fun previous => ?_) u
    previous skip hskip
  obtain ⟨w, ws, rfl⟩ := List.exists_cons_of_ne_nil hword
  exact replaceStarts_cons fun _ h => hc (by simp [(List.cons_prefix_cons.mp h).1])

/-- No occurrence ends in a text that does not have the last character of the word. -/
theorem replaceStarts_append_of_not_mem {c : Char} {ws v : Text} (h : word = ws ++ [c])
    (hc : c ∉ v) (u : Text) (previous : Option Char) (skip : ℕ) (hskip : skip ≤ u.length) :
    replaceStarts word name previous skip (u ++ v) =
      replaceStarts word name previous skip u ++ v := by
  refine replaceStarts_append (fun s hp => ?_) (fun previous => ?_) u previous skip hskip
  · -- an occurrence that reached into `v` would end there, with `c`
    rcases List.prefix_or_prefix_of_prefix hp (List.prefix_append s v) with hs | hs
    · exact hs
    · obtain ⟨x, rfl⟩ := hs
      rw [List.prefix_append_right_inj] at hp
      cases x using List.reverseRecOn with
      | nil => simp
      | append_singleton xs d _ =>
        obtain rfl : d = c := by
          have := congrArg List.getLast? h
          simpa [← List.append_assoc] using this
        exact absurd (hp.subset (by simp)) hc
  · refine replaceStarts_of_none (everyTail_of_suffix fun s hs hp => hc ?_) previous
    exact hs.subset (hp.subset (by simp [h]))

/-- A word that the name cannot begin to complete: at each of its characters no path starts, or the
name begins with another one. -/
def Guarded (name : Text) : (previous : Option Char) → Text → Prop
  | _, [] => True
  | previous, c :: cs =>
    (startsPath previous = true → name.head? ≠ some c) ∧ Guarded name (some c) cs

/-- Replacing brings no guarded word to the front of a text. -/
theorem prefix_of_prefix_replaceStarts (hname : name ≠ []) {p : Text} {previous : Option Char}
    (hp : Guarded name previous p) {t v : Text}
    (h : p <+: replaceStarts word name previous 0 t ++ v) : p <+: t ++ v := by
  induction p generalizing previous t with
  | nil => exact List.nil_prefix
  | cons c cs ih =>
    cases t with
    | nil => exact h
    | cons d ds =>
      rw [replaceStarts] at h
      split at h
      · next hstart =>
        obtain ⟨n, ns, rfl⟩ := List.exists_cons_of_ne_nil hname
        obtain rfl : c = n := by
          rw [List.cons_append, List.cons_append] at h
          exact (List.cons_prefix_cons.mp h).1
        simp only [Bool.and_eq_true] at hstart
        exact absurd rfl (hp.1 hstart.1)
      · obtain ⟨rfl, h⟩ := List.cons_prefix_cons.mp h
        exact List.cons_prefix_cons.mpr ⟨rfl, ih hp.2 h⟩

end ReplaceStarts

theorem representative_ne_nil (array : Text) : representative array ≠ [] := by
  simp [representative]

/-- Every character comes from the text or from the name. -/
theorem mem_of_mem_nameItem {array name t : Text} {c : Char} (h : c ∈ nameItem array name t) :
    c ∈ t ∨ c ∈ name := by
  have hne := representative_ne_nil array
  suffices ∀ previous, c ∈ replaceStarts (representative array) name previous 0 t →
      c ∈ t ∨ c ∈ name from this none h
  clear h
  intro previous h
  induction previous, t using replaceStarts_induction hne with
  | nil previous => exact .inl h
  | append_word previous v hstarts ih =>
    rw [replaceStarts_append_word hstarts hne] at h
    rcases List.mem_append.mp h with h | h
    · exact .inr h
    · exact (ih h).imp_left (List.mem_append_right _)
  | cons previous d t hkept ih =>
    rw [replaceStarts_cons hkept] at h
    rcases List.mem_cons.mp h with rfl | h
    · exact .inl List.mem_cons_self
    · exact (ih h).imp_left (List.mem_cons_of_mem d)

/-- A text that is not empty begins as before, or like the name. -/
theorem head?_nameItem {array name t : Text} (hname : name ≠ []) :
    (nameItem array name t).head? = t.head? ∨ (nameItem array name t).head? = name.head? := by
  cases t with
  | nil => exact .inl rfl
  | cons c cs =>
    rw [nameItem, replaceStarts]
    split
    · refine .inr ?_
      rw [List.head?_append, List.head?_eq_some_head hname]
      rfl
    · exact .inl rfl

/-- Behind the last bracket of a path nothing is named. -/
theorem nameItem_append {array name v : Text} (h : ']' ∉ v) (u : Text) :
    nameItem array name (u ++ v) = nameItem array name u ++ v := by
  have hlast : representative array = (array ++ ['.', '[', '0']) ++ [']'] := by
    simp [representative]
  exact replaceStarts_append_of_not_mem hlast h u none 0 (Nat.zero_le _)

/-- The item that stands for all items is named. -/
theorem nameItem_representative (array name : Text) :
    nameItem array name (representative array) = name := by
  have hall : replaceStarts (representative array) name none 0 (representative array ++ []) = _ :=
    replaceStarts_append_word rfl (representative_ne_nil array) []
  rw [List.append_nil] at hall
  rw [nameItem, hall, replaceStarts, List.append_nil]

/-! ### Names that begin with another letter -/

/-- How every opening pseudo-tag begins. -/
def pseudoOpening : Text := ['<', 'h', 'b', '-']

/-- How every closing pseudo-tag begins. -/
def pseudoClosing : Text := ['<', '/', 'h', 'b', '-']

/-- A text in which no pseudo-tag starts. -/
def Untagged (t : Text) : Prop := Clear pseudoOpening pseudoClosing t

/-- Words that begin like pseudo-tags start nowhere in a text without any. -/
theorem Untagged.clear {t opening closing : Text} (h : Untagged t)
    (hopening : pseudoOpening <+: opening) (hclosing : pseudoClosing <+: closing) :
    Clear opening closing t := fun v =>
  (h v).imp fun _ hs => ⟨fun hp => hs.1 (hopening.trans hp), fun hp => hs.2 (hclosing.trans hp)⟩

/-- In a text without pseudo-tags there is nothing to refuse. -/
theorem unbalanced_of_untagged {t : Text} (h : Untagged t) : unbalanced t = [] := by
  have hnames : ∀ name ∈ pseudoTags, ['h', 'b', '-'] <+: name := by decide
  have nothing : ∀ {u : Text}, ¬ ['h', 'b', '-'] <+: u → wholeWord? pseudoTags u = none := by
    intro u hu
    rw [wholeWord?, List.findSome?_eq_none_iff]
    intro name hmem
    have hafter : after? name u = none :=
      after?_eq_none_iff.mpr fun hp => hu ((hnames name hmem).trans hp)
    rw [hafter]
  have hfound : (pieces leftover? t).filterMap Piece.found? = [] := by
    refine found_eq_nil_iff.mpr fun s hs => ?_
    unfold leftover?
    split
    · next rest =>
      obtain ⟨-, hclosing⟩ := (h []).of_suffix hs (by simp)
      exact nothing fun hp => hclosing (by simpa [pseudoClosing] using hp)
    · next rest _ =>
      obtain ⟨hopening, -⟩ := (h []).of_suffix hs (by simp)
      exact nothing fun hp => hopening (by simpa [pseudoOpening] using hp)
    · rfl
  rw [unbalanced, findAll, hfound]
  rfl

/-- A name that completes no pseudo-tag, wherever it comes to stand. -/
structure IsSafeName (name : Text) : Prop where
  ne_nil : name ≠ []
  angle_not_mem : '<' ∉ name
  head_ne_h : name.head? ≠ some 'h'
  head_ne_slash : name.head? ≠ some '/'

private theorem untagged_replaceStarts {word name : Text} (hword : word ≠ []) (hname : IsSafeName name)
    (previous : Option Char) {t : Text} (h : Untagged t) :
    Untagged (replaceStarts word name previous 0 t) := by
  intro v
  induction previous, t using replaceStarts_induction hword with
  | nil previous => trivial
  | append_word previous u hstarts ih =>
    rw [replaceStarts_append_word hstarts hword]
    have hu : Untagged u := fun v => (everyTail_append.mp (h v)).2
    refine everyTail_append.mpr ⟨everyTail_of_forall_mem fun d hd s => ?_, ih hu⟩
    have hne : '<' ≠ d := fun he => hname.angle_not_mem (he ▸ hd)
    simp [pseudoOpening, pseudoClosing, hne]
  | cons previous c t hkept ih =>
    rw [replaceStarts_cons hkept]
    have ht : Untagged t := fun v => (h v).2
    -- a pseudo-tag that begins here would begin in the text as it was, since the name begins otherwise
    refine ⟨⟨fun hp => (h v).1.1 ?_, fun hp => (h v).1.2 ?_⟩, ih ht⟩
    · obtain ⟨rfl, hp⟩ := List.cons_prefix_cons.mp hp
      refine List.cons_prefix_cons.mpr ⟨rfl, prefix_of_prefix_replaceStarts hname.ne_nil ?_ hp⟩
      exact ⟨fun _ => hname.head_ne_h, fun h => absurd h (by decide),
        fun h => absurd h (by decide), trivial⟩
    · obtain ⟨rfl, hp⟩ := List.cons_prefix_cons.mp hp
      refine List.cons_prefix_cons.mpr ⟨rfl, prefix_of_prefix_replaceStarts hname.ne_nil ?_ hp⟩
      exact ⟨fun _ => hname.head_ne_slash, fun _ => hname.head_ne_h,
        fun h => absurd h (by decide), fun h => absurd h (by decide), trivial⟩

/-- **Safe names.** A name that begins with no `h` or `/` brings no pseudo-tag into a text. -/
theorem Untagged.nameItem {array name t : Text} (h : Untagged t) (hname : IsSafeName name) :
    Untagged (nameItem array name t) :=
  untagged_replaceStarts (representative_ne_nil array) hname none h

/-! ### Paths without a space -/

/-- What stands behind the angle bracket of a tag: a name without a dot, which is that of no
pseudo-tag, and a space or the end of the tag. -/
def BeginsTag (t : Text) : Prop :=
  ∃ name separator rest, t = name ++ separator :: rest ∧ (separator = ' ' ∨ separator = '>') ∧
    '.' ∉ name ∧ ¬ pseudoOpening.tail <+: name ∧ ¬ pseudoClosing.tail <+: name

/-- A text in which a tag begins behind every angle bracket. -/
def Tight (t : Text) : Prop := EveryTail (fun s => ∀ u, s = '<' :: u → BeginsTag u) t

theorem BeginsTag.append {t : Text} (h : BeginsTag t) (v : Text) : BeginsTag (t ++ v) := by
  obtain ⟨name, separator, rest, rfl, h⟩ := h
  exact ⟨name, separator, rest ++ v, by simp, h⟩

theorem BeginsTag.not_pseudo {t : Text} (h : BeginsTag t) :
    ¬ pseudoOpening.tail <+: t ∧ ¬ pseudoClosing.tail <+: t := by
  obtain ⟨name, separator, rest, rfl, hseparator, -, hopening, hclosing⟩ := h
  have hnot : separator ∉ pseudoOpening.tail ∧ separator ∉ pseudoClosing.tail := by
    rcases hseparator with rfl | rfl <;> decide
  exact ⟨fun hp => hopening (prefix_of_prefix_append_cons hp hnot.1),
    fun hp => hclosing (prefix_of_prefix_append_cons hp hnot.2)⟩

theorem Tight.append {t u : Text} (ht : Tight t) (hu : Tight u) : Tight (t ++ u) := by
  refine everyTail_append.mpr ⟨?_, hu⟩
  induction t with
  | nil => trivial
  | cons c cs ih =>
    refine ⟨fun w hw => ?_, ih ht.2⟩
    obtain ⟨rfl, rfl⟩ : c = '<' ∧ cs ++ u = w := by simpa using hw
    exact (ht.1 cs rfl).append u

theorem tight_of_not_mem {t : Text} (h : '<' ∉ t) : Tight t :=
  everyTail_of_forall_mem fun c hc s u hu => by
    obtain ⟨rfl, -⟩ : c = '<' ∧ s = u := by simpa using hu
    exact absurd hc h

/-- A tag whose name has no dot and is that of no pseudo-tag. -/
theorem tight_tag {u : Text} (hu : '<' ∉ u) (h : BeginsTag u) : Tight ('<' :: u) := by
  refine ⟨fun w hw => ?_, tight_of_not_mem hu⟩
  obtain rfl : u = w := by simpa using hw
  exact h

theorem Tight.untagged {t : Text} (h : Tight t) : Untagged t := by
  intro v
  induction t with
  | nil => trivial
  | cons c cs ih =>
    refine ⟨⟨fun hp => ?_, fun hp => ?_⟩, ih h.2⟩
    all_goals obtain ⟨rfl, htail⟩ := List.cons_prefix_cons.mp hp
    · exact ((h.1 cs rfl).append v).not_pseudo.1 htail
    · exact ((h.1 cs rfl).append v).not_pseudo.2 htail

private theorem BeginsTag.replaceStarts {word name t : Text} (h : BeginsTag t)
    (hdot : '.' ∈ word) (hspace : ' ' ∉ word) (hend : '>' ∉ word) (previous : Option Char) :
    BeginsTag (replaceStarts word name previous 0 t) := by
  obtain ⟨own, separator, rest, rfl, hseparator, hown, hno⟩ := h
  have hnot : separator ∉ word := by
    rcases hseparator with rfl | rfl
    · exact hspace
    · exact hend
  have none_starts : EveryTail (fun s => ¬ word <+: s ++ rest) (own ++ [separator]) := by
    refine everyTail_append.mpr ⟨?_, ?_⟩
    · -- the word has a dot, which a part of the name before the separator does not have
      clear hno
      induction own with
      | nil => trivial
      | cons c cs ih =>
        refine ⟨fun hp => ?_, ih fun hmem => hown (by simp [hmem])⟩
        rw [List.append_assoc, List.singleton_append] at hp
        exact hown ((prefix_of_prefix_append_cons hp hnot).subset hdot)
    · refine ⟨fun hp => ?_, trivial⟩
      cases word with
      | nil => simp at hdot
      | cons c cs => exact hnot (by simp [(List.cons_prefix_cons.mp hp).1])
  have hkeep : Template.replaceStarts word name previous 0 (own ++ [separator] ++ rest) = _ :=
    replaceStarts_append_of_none none_starts previous
  rw [List.append_assoc, List.singleton_append] at hkeep
  rw [hkeep]
  exact ⟨own, separator, _, by rw [List.append_assoc, List.singleton_append], hseparator, hown, hno⟩

private theorem tight_replaceStarts {word name : Text} (hdot : '.' ∈ word) (hspace : ' ' ∉ word)
    (hend : '>' ∉ word) (hname : '<' ∉ name) (previous : Option Char) {t : Text} (h : Tight t) :
    Tight (replaceStarts word name previous 0 t) := by
  have hword := List.ne_nil_of_mem hdot
  induction previous, t using replaceStarts_induction hword with
  | nil previous => trivial
  | append_word previous v hstarts ih =>
    rw [replaceStarts_append_word hstarts hword]
    exact (tight_of_not_mem hname).append (ih (everyTail_append.mp h).2)
  | cons previous c t hkept ih =>
    rw [replaceStarts_cons hkept]
    refine ⟨fun w hw => ?_, ih h.2⟩
    obtain ⟨rfl, rfl⟩ : c = '<' ∧ Template.replaceStarts word name (some c) 0 t = w := by
      simpa using hw
    exact (h.1 t rfl).replaceStarts hdot hspace hend _

/-- **Paths without a space.** A path with no space and no `>` is in the name of no tag. -/
theorem Tight.nameItem {array name t : Text} (h : Tight t) (hspace : ' ' ∉ array)
    (hend : '>' ∉ array) (hname : '<' ∉ name) : Tight (nameItem array name t) := by
  refine tight_replaceStarts ?_ ?_ ?_ hname none h
  all_goals simp [representative, hspace, hend]

end Stencil.Template
