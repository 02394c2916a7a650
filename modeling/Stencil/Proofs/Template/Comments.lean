import Stencil.Proofs.Template.Cleanup

/-!
# Comments in markup

Markup with comments in it is text with `Insert`s between: ordinary comments, and the blocks that mail
clients read conditions from. A hidden block is one comment, which other readers skip as a whole; a revealed
one is shown to them, since only its condition and its end are comments.

The main statement is `stripComments_written`: **stripping takes out ordinary comments as a whole and leaves
hidden blocks as they are, but of a revealed block it leaves the condition only.** The condition of a
revealed block is followed by `<!-->`, which is taken for the beginning of an ordinary comment, and that one
ends where the block does. So what is to stay does stay exactly if no block is revealed
(`stripComments_revealed_ne`).
-/

namespace Stencil.Template

open Text

/-! ### The words of comments, character by character -/

/-- The end of a comment. -/
def commentClosing : Text := "-->".toList

/-- The beginning of a condition, which makes no ordinary comment. -/
def conditionOpening : Text := "<!--[if ".toList

/-- The end of a condition. -/
def conditionClosing : Text := "]>".toList

/-- The end of a block, in front of the end of its comment. -/
def blockClosing : Text := "<![endif]".toList

theorem commentClosing_eq : commentClosing = ['-', '-', '>'] := by decide

theorem conditionOpening_eq : conditionOpening = '<' :: ['!', '-', '-', '[', 'i', 'f', ' '] := by decide

theorem conditionClosing_eq : conditionClosing = [']', '>'] := by decide

theorem blockClosing_eq : blockClosing = '<' :: ['!', '[', 'e', 'n', 'd', 'i', 'f', ']'] := by decide

/-! ### Markup with comments -/

/-- A text in which no comment begins or ends. -/
structure CommentFree (t : Text) : Prop where
  noOpening : ¬ commentOpening <:+: t
  noClosing : ¬ commentClosing <:+: t

instance : DecidablePred CommentFree := fun t =>
  decidable_of_iff (¬ commentOpening <:+: t ∧ ¬ commentClosing <:+: t)
    ⟨fun h => ⟨h.1, h.2⟩, fun h => ⟨h.1, h.2⟩⟩

/-- A comment, or a block that comments set off. -/
inductive Insert where
  /-- An ordinary comment. -/
  | ordinary (t : Text) (isFree : CommentFree t) (begins : ∀ c ∈ t.head?, c ≠ '[' ∧ c ≠ '>')
  /-- A block that is shown only where its condition is understood. -/
  | hidden (condition t : Text) (isCondition : CommentFree condition) (isFree : CommentFree t)
  /-- A block that is shown where its condition is not understood, too. -/
  | revealed (condition t : Text) (isCondition : CommentFree condition) (isFree : CommentFree t)

namespace Insert

/-- An insert as it is written. -/
def written : Insert → Text
  | ordinary t _ _ => commentOpening ++ (t ++ commentClosing)
  | hidden condition t _ _ =>
    conditionOpening ++ (condition ++ (conditionClosing ++ (t ++ (blockClosing ++ commentClosing))))
  | revealed condition t _ _ =>
    conditionOpening ++ (condition ++ (conditionClosing ++ (commentOpening ++ ('>' :: (t ++
      (commentOpening ++ blockClosing)) ++ commentClosing))))

/-- What is to stay of an insert. -/
def kept : Insert → Text
  | ordinary _ _ _ => []
  | i => i.written

/-- What stripping leaves of an insert. -/
def left : Insert → Text
  | ordinary _ _ _ => []
  | revealed condition _ _ _ => conditionOpening ++ (condition ++ conditionClosing)
  | i => i.written

/-- Whether an insert is a revealed block. -/
def isRevealed : Insert → Bool
  | revealed _ _ _ _ => true
  | _ => false

end Insert

/-- Text with inserts between. -/
inductive Commented where
  /-- The text behind the last insert. -/
  | text (t : Text) (isFree : CommentFree t)
  /-- A text, the insert behind it, and what comes then. -/
  | insert (t : Text) (isFree : CommentFree t) (i : Insert) (rest : Commented)

namespace Commented

/-- The markup with a text in the place of each insert. -/
def showing (shown : Insert → Text) : Commented → Text
  | text t _ => t
  | insert t _ i rest => t ++ (shown i ++ rest.showing shown)

/-- The inserts in their order. -/
def inserts : Commented → List Insert
  | text _ _ => []
  | insert _ _ i rest => i :: rest.inserts

end Commented

/-! ### Steps of stripping -/

section Steps

variable {u v : Text}

/-- A part in which no ordinary comment begins is kept. -/
theorem stripComments_append (h : EveryTail (fun s => comment? (s ++ v) = none) u) :
    stripComments (u ++ v) = u ++ stripComments v := by
  rw [stripComments, replaceEach, pieces_append_of_none h, List.flatMap_append, flatMap_text_char]
  rfl

/-- A text without openings is kept, if what is behind it does not make one of its end. -/
theorem stripComments_free (h : CommentFree u) (hv : ∀ c ∈ v.head?, c ≠ '!' ∧ c ≠ '-') :
    stripComments (u ++ v) = u ++ stripComments v := by
  have hending : EveryTail (fun s => ¬ s <+: v) commentOpening.tail := by
    rw [commentOpening_eq]
    cases v with
    | nil => simp
    | cons c v =>
      obtain ⟨hmark, hdash⟩ := hv c rfl
      simp [hmark.symm, hdash.symm]
  exact stripComments_append
    ((everyTail_append_of_absent h.noOpening hending).imp fun _ => comment?_eq_none)

/-- A text without brackets is kept, whatever is behind it. -/
theorem stripComments_of_not_mem (h : '<' ∉ u) : stripComments (u ++ v) = u ++ stripComments v := by
  refine stripComments_append (everyTail_of_forall_mem fun c hc s => comment?_eq_none ?_)
  have hne : '<' ≠ c := fun heq => h (heq ▸ hc)
  simp [commentOpening_eq, hne]

/-- What begins like a comment, but is none, is kept up to the next bracket. -/
theorem stripComments_tag (hfirst : comment? ('<' :: (u ++ v)) = none) (h : '<' ∉ u) :
    stripComments ('<' :: (u ++ v)) = '<' :: (u ++ stripComments v) := by
  have hbracket : stripComments (['<'] ++ (u ++ v)) = ['<'] ++ stripComments (u ++ v) :=
    stripComments_append ⟨hfirst, trivial⟩
  rw [← stripComments_of_not_mem h]
  exact hbracket

/-- A comment whose text does not begin with a square bracket is recognised up to its first end. -/
theorem comment?_commentOpening (h : ∀ c ∈ u.head?, c ≠ '[') :
    comment? (commentOpening ++ u) = (cut? commentClosing u).map fun (_, rest) => ((), rest) := by
  have hafter : after? "<!--".toList (commentOpening ++ u) = some u := after?_append commentOpening u
  rw [comment?, hafter]
  split
  · next heq =>
    obtain rfl := Option.some.inj heq
    exact absurd rfl (h '[' rfl)
  · next heq =>
    obtain rfl := Option.some.inj heq
    rfl
  · next heq => cases heq

/-- An ordinary comment is taken out as a whole. -/
theorem stripComments_comment (hbegins : ∀ c ∈ u.head?, c ≠ '[') (h : ¬ commentClosing <:+: u) (v : Text) :
    stripComments (commentOpening ++ (u ++ (commentClosing ++ v))) = stripComments v := by
  have hending : EveryTail (fun s => ¬ s <+: commentClosing ++ v) commentClosing.tail := by
    simp [commentClosing_eq]
  have hcut : cut? commentClosing (u ++ (commentClosing ++ v)) = some (u, v) :=
    cut?_append (everyTail_append_of_absent h hending)
  have hhead : ∀ c ∈ (u ++ (commentClosing ++ v)).head?, c ≠ '[' := by
    cases u with
    | nil => simp [commentClosing_eq]
    | cons c u => exact hbegins
  have hwhole : commentOpening ++ (u ++ (commentClosing ++ v)) =
      commentOpening ++ (u ++ commentClosing) ++ v := by simp only [List.append_assoc]
  have hfound : comment? (commentOpening ++ (u ++ commentClosing) ++ v) = some ((), v) := by
    rw [← hwhole, comment?_commentOpening hhead, hcut]
    rfl
  rw [hwhole, stripComments, replaceEach, pieces_append_of_some (by simp [commentOpening_eq]) hfound,
    List.flatMap_cons]
  rfl

/-- The condition of a block is kept. -/
theorem stripComments_condition {condition : Text} (h : CommentFree condition) (v : Text) :
    stripComments (conditionOpening ++ (condition ++ (conditionClosing ++ v))) =
      conditionOpening ++ (condition ++ (conditionClosing ++ stripComments v)) := by
  have hfirst : ∀ w, comment? ('<' :: (['!', '-', '-', '[', 'i', 'f', ' '] ++ w)) = none := fun w => rfl
  rw [conditionOpening_eq, List.cons_append, stripComments_tag (hfirst _) (by decide),
    stripComments_free h (by simp [conditionClosing_eq]), stripComments_of_not_mem (by decide)]
  rfl

/-- The end of a block is kept. -/
theorem stripComments_blockClosing (v : Text) :
    stripComments (blockClosing ++ v) = blockClosing ++ stripComments v := by
  have hfirst : comment? ('<' :: (['!', '[', 'e', 'n', 'd', 'i', 'f', ']'] ++ v)) = none := rfl
  rw [blockClosing_eq]
  exact stripComments_tag hfirst (by decide)

end Steps

/-! ### Stripping -/

/-- What stripping leaves of an insert, whatever is behind it. -/
theorem stripComments_insert (i : Insert) (v : Text) :
    stripComments (i.written ++ v) = i.left ++ stripComments v := by
  cases i with
  | ordinary t isFree begins =>
    simp only [Insert.left, Insert.written, List.append_assoc]
    exact stripComments_comment (fun c hc => (begins c hc).1) isFree.noClosing v
  | hidden condition t isCondition isFree =>
    simp only [Insert.left, Insert.written, List.append_assoc]
    rw [stripComments_condition isCondition, stripComments_free isFree (by simp [blockClosing_eq]),
      stripComments_blockClosing, stripComments_of_not_mem (by decide)]
  | revealed condition t isCondition isFree =>
    -- what looks like one comment is the end of the condition, the text, and the beginning of the end
    have hwithout : ¬ commentClosing <:+: '>' :: (t ++ (commentOpening ++ blockClosing)) := by
      intro h
      have hsplit : '>' :: (t ++ (commentOpening ++ blockClosing)) =
          ('>' :: t) ++ '<' :: (['!', '-', '-'] ++ blockClosing) := by
        rw [commentOpening_eq]
        rfl
      rw [hsplit] at h
      rcases infix_of_infix_append_cons h (by decide) with h | h
      · rcases List.infix_cons_iff.mp h with h | h
        · simp [commentClosing_eq] at h
        · exact isFree.noClosing h
      · exact absurd h (by decide)
    have hcomment := stripComments_comment (by simp) hwithout v
    simp only [Insert.left, Insert.written, List.append_assoc]
    rw [stripComments_condition isCondition, hcomment]

/-- What stripping leaves of markup with comments. -/
theorem stripComments_showing (m : Commented) :
    stripComments (m.showing Insert.written) = m.showing Insert.left := by
  induction m with
  | text t isFree =>
    have hnil : stripComments [] = [] := rfl
    have h := stripComments_free (v := []) isFree (by simp)
    rwa [List.append_nil, hnil, List.append_nil] at h
  | insert t isFree i rest ih =>
    have hhead : ∀ c ∈ (i.written ++ rest.showing Insert.written).head?, c ≠ '!' ∧ c ≠ '-' := by
      cases i <;> simp [Insert.written, commentOpening_eq, conditionOpening_eq]
    rw [Commented.showing, stripComments_free isFree hhead, stripComments_insert, ih, Commented.showing]

/-! ### What is to stay -/

theorem Insert.left_eq_kept {i : Insert} (h : i.isRevealed = false) : i.left = i.kept := by
  cases i with
  | ordinary | hidden => rfl
  | revealed => cases h

/-- Of a revealed block something is missing. -/
theorem Insert.length_left_lt {i : Insert} (h : i.isRevealed = true) : i.left.length < i.kept.length := by
  cases i with
  | ordinary | hidden => cases h
  | revealed condition t _ _ =>
    simp only [left, kept, written, List.length_append, List.length_cons]
    omega

theorem Insert.length_left_le (i : Insert) : i.left.length ≤ i.kept.length := by
  cases h : i.isRevealed with
  | false => rw [left_eq_kept h]
  | true => exact (length_left_lt h).le

theorem Commented.length_showing_left_le (m : Commented) :
    (m.showing Insert.left).length ≤ (m.showing Insert.kept).length := by
  induction m with
  | text => exact le_rfl
  | insert t _ i rest ih =>
    have hi := i.length_left_le
    simp only [showing, List.length_append]
    omega

/-- Nothing is missing exactly if no block is revealed. -/
theorem Commented.showing_left_eq_iff (m : Commented) :
    m.showing Insert.left = m.showing Insert.kept ↔ ∀ i ∈ m.inserts, i.isRevealed = false := by
  induction m with
  | text => simp [showing, inserts]
  | insert t _ i rest ih =>
    rw [inserts, List.forall_mem_cons, ← ih, showing, showing, List.append_cancel_left_eq]
    constructor
    · intro h
      have hlength := congrArg List.length h
      rw [List.length_append, List.length_append] at hlength
      have hrest := rest.length_showing_left_le
      have hi : i.isRevealed = false := by
        rw [← Bool.not_eq_true]
        intro hrevealed
        have := Insert.length_left_lt hrevealed
        omega
      rw [Insert.left_eq_kept hi, List.append_cancel_left_eq] at h
      exact ⟨hi, h⟩
    · rintro ⟨hi, hrest⟩
      rw [Insert.left_eq_kept hi, hrest]

/-- **Comments.** Stripping takes out ordinary comments and keeps hidden blocks, but of a revealed block it
keeps the condition only; so it keeps all that is to stay exactly if no block is revealed. -/
theorem stripComments_written (m : Commented) :
    stripComments (m.showing Insert.written) = m.showing Insert.left ∧
      (stripComments (m.showing Insert.written) = m.showing Insert.kept ↔
        ∀ i ∈ m.inserts, i.isRevealed = false) := by
  rw [stripComments_showing]
  exact ⟨rfl, m.showing_left_eq_iff⟩

/-- A text between two others, shown to all but one mail client. -/
def revealing : Commented :=
  .insert "a".toList (by decide) (.revealed "!mso".toList "x".toList (by decide) (by decide))
    (.text "b".toList (by decide))

/-- The text of a revealed block is lost. -/
theorem stripComments_revealed_ne :
    revealing.showing Insert.written = "a<!--[if !mso]><!-->x<!--<![endif]-->b".toList ∧
      stripComments (revealing.showing Insert.written) = "a<!--[if !mso]>b".toList ∧
      stripComments (revealing.showing Insert.written) ≠ revealing.showing Insert.kept := by
  decide

end Stencil.Template
