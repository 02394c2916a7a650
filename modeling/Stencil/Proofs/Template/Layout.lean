import Stencil.Proofs.Text.Scanning
import Stencil.Template.Lowering

/-!
# Nested blocks settle from the inside out

A pass over a text lowers what is innermost in it, and passes follow each other until nothing is left
(`settle`). A `Layout` is the same text seen as a tree: runs of text, and blocks with a head and a
body. `Layout.lowered` computes bottom-up what stands for the whole; it never looks at the text of an
opening or closing tag. `SettlesTo` is what is used of layouts elsewhere: a relation between texts,
closed under putting texts together and under blocks.

The main statement is `settle_written`: **settling the written text of a tidy layout gives its
bottom-up value.** A layout is tidy when no opening or closing tag of its kind can be read off its
runs, nor off what its blocks become. One pass is the function `Layout.step`: it keeps the bottom-up
value and takes one off the height, so that height-many passes suffice.

Nothing here depends on which pseudo-tag is lowered. What the recognition of one has to do is said by
the laws in `BlockKind`.
-/

namespace Stencil.Template

open Text

/-- **Clear of** an opening and a closing word: neither of them starts anywhere in the text, whatever
stands behind it. -/
def Clear (opening closing t : Text) : Prop :=
  ∀ v, EveryTail (fun s => ¬ opening <+: s ++ v ∧ ¬ closing <+: s ++ v) t

section Clear

variable {opening closing t u : Text}

@[simp] theorem clear_nil : Clear opening closing [] := fun _ => trivial

/-- Clear texts side by side are clear. -/
theorem Clear.append (ht : Clear opening closing t) (hu : Clear opening closing u) :
    Clear opening closing (t ++ u) := fun v =>
  everyTail_append.mpr ⟨(ht (u ++ v)).imp fun s hs => by simpa using hs, hu v⟩

/-- Words that begin with an angle bracket do not start in a text without one. -/
theorem clear_of_not_mem {ow cw : Text} (h : '<' ∉ t) :
    Clear ('<' :: ow) ('<' :: cw) t := by
  refine fun v => everyTail_of_forall_mem fun c hc s => ?_
  have hne : '<' ≠ c := fun he => h (he ▸ hc)
  simp [hne]

/-- A tag that is read as neither of the words is clear of them. -/
theorem clear_tag {ow cw : Text} (h : '<' ∉ t) (how : ∀ v, ¬ ow <+: t ++ v)
    (hcw : ∀ v, ¬ cw <+: t ++ v) : Clear ('<' :: ow) ('<' :: cw) ('<' :: t) := by
  refine fun v => ⟨⟨fun hp => how v ?_, fun hp => hcw v ?_⟩, clear_of_not_mem h v⟩
  · exact (List.cons_prefix_cons.mp hp).2
  · exact (List.cons_prefix_cons.mp hp).2

end Clear

/-- A kind of block in a text: how its tags are written, what a matcher makes of it, and what stands
for it once it is lowered. The laws say that the matcher finds a block with its head whenever its body
is clear of tags, and finds nothing where the body goes on with another opening tag. -/
structure BlockKind (Head Hit : Type) where
  /-- The word that every opening tag begins with. -/
  opening : Text
  /-- The closing tag. -/
  closing : Text
  /-- The opening tag for a head. -/
  start : Head → Text
  /-- What is found for a head and a body. -/
  hit : Head → Text → Hit
  /-- Recognises an innermost block. -/
  match? : Text.Matcher Hit
  /-- The text that stands for what is found. -/
  lower : Hit → Text
  opening_ne_nil : opening ≠ []
  opening_prefix_start : ∀ h, opening <+: start h
  match?_eq_none : ∀ {t}, ¬ opening <+: t → match? t = none
  match?_innermost : ∀ {h body rest}, Clear opening closing body →
    match? (start h ++ (body ++ (closing ++ rest))) = some (hit h body, rest)
  match?_nested : ∀ {h body t}, Clear opening closing body →
    match? (start h ++ (body ++ (opening ++ t))) = none
  start_tail : ∀ h v, EveryTail (fun s => ¬ opening <+: s ++ v) (start h).tail
  closing_tail : ∀ v, EveryTail (fun s => ¬ opening <+: s ++ v) closing

/-- A text as runs and nested blocks. -/
inductive Layout (Head : Type) where
  /-- The last run. -/
  | text (t : Text)
  /-- A run, a block with its body, and what is behind it. -/
  | block (before : Text) (head : Head) (body rest : Layout Head)

namespace Layout

variable {Head Hit : Type} (k : BlockKind Head Hit)

/-! ### Putting layouts together -/

/-- A layout behind a run. -/
def prepend (t : Text) : Layout Head → Layout Head
  | text u => text (t ++ u)
  | block u h b r => block (t ++ u) h b r

/-- Two layouts, one behind the other. -/
def append : Layout Head → Layout Head → Layout Head
  | text t, l => l.prepend t
  | block t h b r, l => block t h b (append r l)

/-- How deep blocks are nested. -/
def height : Layout Head → Nat
  | text _ => 0
  | block _ _ b r => max (b.height + 1) r.height

/-- The text of a layout, with the tags of its blocks. -/
def written : Layout Head → Text
  | text t => t
  | block t h b r => t ++ (k.start h ++ (b.written ++ (k.closing ++ r.written)))

/-- **Bottom-up value.** The text with every block lowered, inner blocks before outer ones. -/
def lowered : Layout Head → Text
  | text t => t
  | block t h b r => t ++ (k.lower (k.hit h b.lowered) ++ r.lowered)

/-- A layout in whose runs, and in what its blocks become, no tag of the kind can be read. -/
def Tidy : Layout Head → Prop
  | text t => Clear k.opening k.closing t
  | block t h b r => Clear k.opening k.closing t ∧ b.Tidy ∧
      Clear k.opening k.closing (k.lower (k.hit h (b.lowered k))) ∧ r.Tidy

section Append

variable {k} {l₁ l₂ : Layout Head} {t : Text}

@[simp] theorem written_prepend : (l₁.prepend t).written k = t ++ l₁.written k := by
  cases l₁ <;> simp [prepend, written]

/-- Layouts side by side are written one behind the other. -/
@[simp] theorem written_append : (l₁.append l₂).written k = l₁.written k ++ l₂.written k := by
  induction l₁ with
  | text t => simp [append, written]
  | block t h b r _ ih => simp [append, written, ih]

@[simp] theorem lowered_prepend : (l₁.prepend t).lowered k = t ++ l₁.lowered k := by
  cases l₁ <;> simp [prepend, lowered]

/-- Layouts side by side are lowered one behind the other. -/
@[simp] theorem lowered_append : (l₁.append l₂).lowered k = l₁.lowered k ++ l₂.lowered k := by
  induction l₁ with
  | text t => simp [append, lowered]
  | block t h b r _ ih => simp [append, lowered, ih]

@[simp] theorem height_prepend : (l₁.prepend t).height = l₁.height := by
  cases l₁ <;> rfl

/-- Clear text in front keeps a layout tidy. -/
theorem Tidy.prepend (ht : Clear k.opening k.closing t) (h : l₁.Tidy k) :
    (l₁.prepend t).Tidy k := by
  cases l₁ with
  | text u => exact ht.append h
  | block u h' b r => exact ⟨ht.append h.1, h.2⟩

/-- Tidy layouts side by side are tidy. -/
theorem Tidy.append (h₁ : l₁.Tidy k) (h₂ : l₂.Tidy k) : (l₁.append l₂).Tidy k := by
  induction l₁ with
  | text t => exact h₂.prepend h₁
  | block t h b r _ ih => exact ⟨h₁.1, h₁.2.1, h₁.2.2.1, ih h₁.2.2.2⟩

end Append

/-- What a tidy layout becomes is clear of tags. -/
theorem Tidy.clear_lowered {k : BlockKind Head Hit} {l : Layout Head} (h : l.Tidy k) :
    Clear k.opening k.closing (l.lowered k) := by
  induction l with
  | text t => exact h
  | block t hd b r _ ih => exact h.1.append (h.2.2.1.append (ih h.2.2.2))

/-! ### One pass -/

/-- What a scan finds in a layout: the blocks without blocks in them. -/
def pieces : Layout Head → List (Piece Hit)
  | text t => t.map .char
  | block t h b r =>
    t.map .char ++
      match b with
      | text u => .hit (k.hit h u) :: r.pieces
      | block .. => (k.start h).map .char ++ (b.pieces ++ (k.closing.map .char ++ r.pieces))

/-- A layout after one pass: the blocks without blocks in them are lowered. -/
def step : Layout Head → Layout Head
  | text t => text t
  | block t h b r =>
    match b with
    | text u => r.step.prepend (t ++ k.lower (k.hit h u))
    | block .. => block t h b.step r.step

/-- A layout without blocks is a text. -/
theorem exists_text_of_height_eq_zero {l : Layout Head} (h : l.height = 0) : ∃ t, l = text t := by
  cases l with
  | text t => exact ⟨t, rfl⟩
  | block t hd b r => simp [height] at h

theorem pieces_block_text (t u : Text) (h : Head) (r : Layout Head) :
    (block t h (text u) r).pieces k = t.map .char ++ .hit (k.hit h u) :: r.pieces k := rfl

theorem step_block_text (t u : Text) (h : Head) (r : Layout Head) :
    (block t h (text u) r).step k = (r.step k).prepend (t ++ k.lower (k.hit h u)) := rfl

theorem pieces_block (t : Text) (h : Head) {b : Layout Head} (hb : b.height ≠ 0)
    (r : Layout Head) : (block t h b r).pieces k = t.map .char ++ ((k.start h).map .char ++
      (b.pieces k ++ (k.closing.map .char ++ r.pieces k))) := by
  cases b with
  | text u => exact absurd rfl hb
  | block => rfl

theorem step_block (t : Text) (h : Head) {b : Layout Head} (hb : b.height ≠ 0)
    (r : Layout Head) : (block t h b r).step k = block t h (b.step k) (r.step k) := by
  cases b with
  | text u => exact absurd rfl hb
  | block => rfl

/-- A layout with blocks begins, behind a run, with an opening tag. -/
theorem exists_written_of_height_ne_zero {k : BlockKind Head Hit} {l : Layout Head}
    (hl : l.Tidy k) (h : l.height ≠ 0) :
    ∃ t u, Clear k.opening k.closing t ∧ l.written k = t ++ (k.opening ++ u) := by
  cases l with
  | text t => exact absurd rfl h
  | block t hd b r =>
    obtain ⟨u, hu⟩ := k.opening_prefix_start hd
    exact ⟨t, u ++ (b.written k ++ (k.closing ++ r.written k)), hl.1, by simp [written, ← hu]⟩

/-- **A scan follows the layout.** -/
theorem pieces_written_append {k : BlockKind Head Hit} {l : Layout Head} (hl : l.Tidy k)
    (v : Text) : Text.pieces k.match? (l.written k ++ v) = l.pieces k ++ Text.pieces k.match? v := by
  have run : ∀ {t : Text} (v : Text), Clear k.opening k.closing t →
      Text.pieces k.match? (t ++ v) = t.map .char ++ Text.pieces k.match? v := fun v ht =>
    pieces_append_of_none ((ht v).imp fun s hs => k.match?_eq_none hs.1)
  have start_ne_nil : ∀ h, k.start h ≠ [] := fun h =>
    (k.opening_prefix_start h).ne_nil k.opening_ne_nil
  induction l generalizing v with
  | text t => exact run v hl
  | block t h b r ihb ihr =>
    obtain ⟨ht, hb, -, hr⟩ := hl
    simp only [written, List.append_assoc]
    rw [run _ ht]
    by_cases hflat : b.height = 0
    · obtain ⟨u, rfl⟩ := exists_text_of_height_eq_zero hflat
      have hit : k.match? (k.start h ++ (u ++ (k.closing ++ (r.written k ++ v)))) =
          some (k.hit h u, r.written k ++ v) := k.match?_innermost hb
      have hall := pieces_append_of_some (x := k.start h ++ (u ++ k.closing)) (m := k.match?)
        (v := r.written k ++ v) (f := k.hit h u) (by simp [start_ne_nil])
        (by simpa using hit)
      simp only [List.append_assoc] at hall
      simp [written, pieces_block_text, hall, ihr hr]
    · -- the opening tag is no occurrence, since another one follows before the closing tag
      obtain ⟨t', u, ht', hu⟩ := exists_written_of_height_ne_zero hb hflat
      have hnone : k.match? (k.start h ++ (b.written k ++ (k.closing ++ (r.written k ++ v)))) =
          none := by
        simpa [hu] using k.match?_nested (h := h) ht'
      have hstart := k.start_tail h (b.written k ++ (k.closing ++ (r.written k ++ v)))
      have hopen : EveryTail (fun s => k.match? (s ++ (b.written k ++
          (k.closing ++ (r.written k ++ v)))) = none) (k.start h) := by
        cases hs : k.start h with
        | nil => exact absurd hs (start_ne_nil h)
        | cons c cs =>
          rw [hs] at hnone hstart
          exact ⟨hnone, hstart.imp fun s hs => k.match?_eq_none hs⟩
      rw [pieces_append_of_none hopen, ihb hb,
        pieces_append_of_none ((k.closing_tail _).imp fun s hs => k.match?_eq_none hs), ihr hr,
        pieces_block k t h hflat]
      simp

/-- A tidy layout is scanned into its pieces. -/
theorem pieces_written {k : BlockKind Head Hit} {l : Layout Head} (hl : l.Tidy k) :
    Text.pieces k.match? (l.written k) = l.pieces k := by
  have hnil : k.match? [] = none :=
    k.match?_eq_none fun h => k.opening_ne_nil (List.prefix_nil.mp h)
  have h := pieces_written_append hl []
  simpa [Text.pieces, piecesFrom, hnil] using h

/-- Lowering what a scan finds is the text of the next layout. -/
theorem flatMap_text_pieces (l : Layout Head) :
    (l.pieces k).flatMap (Piece.text k.lower) = (l.step k).written k := by
  induction l with
  | text t => exact flatMap_text_char k.lower t
  | block t h b r ihb ihr =>
    by_cases hflat : b.height = 0
    · obtain ⟨u, rfl⟩ := exists_text_of_height_eq_zero hflat
      rw [pieces_block_text, step_block_text, List.flatMap_append, flatMap_text_char,
        List.flatMap_cons, ihr, written_prepend, List.append_assoc]
      rfl
    · rw [pieces_block k t h hflat, step_block k t h hflat]
      simp only [List.flatMap_append, flatMap_text_char, ihb, ihr, written]

/-- One pass does not change what a layout is lowered to in the end. -/
@[simp] theorem lowered_step (l : Layout Head) : (l.step k).lowered k = l.lowered k := by
  induction l with
  | text t => rfl
  | block t h b r ihb ihr =>
    by_cases hflat : b.height = 0
    · obtain ⟨u, rfl⟩ := exists_text_of_height_eq_zero hflat
      simp [step_block_text, lowered, ihr]
    · rw [step_block k t h hflat]
      simp only [lowered, ihb, ihr]

/-- One pass takes the innermost blocks off a layout. -/
@[simp] theorem height_step (l : Layout Head) : (l.step k).height = l.height - 1 := by
  induction l with
  | text t => rfl
  | block t h b r ihb ihr =>
    by_cases hflat : b.height = 0
    · obtain ⟨u, rfl⟩ := exists_text_of_height_eq_zero hflat
      simp only [step_block_text, height_prepend, ihr, height]
      omega
    · rw [step_block k t h hflat]
      simp only [height, ihb, ihr]
      omega

/-- One pass keeps a layout tidy. -/
theorem Tidy.step {k : BlockKind Head Hit} {l : Layout Head} (hl : l.Tidy k) :
    (l.step k).Tidy k := by
  induction l with
  | text t => exact hl
  | block t h b r ihb ihr =>
    obtain ⟨ht, hb, hlow, hr⟩ := hl
    by_cases hflat : b.height = 0
    · obtain ⟨u, rfl⟩ := exists_text_of_height_eq_zero hflat
      exact (ihr hr).prepend (ht.append hlow)
    · rw [step_block k t h hflat]
      exact ⟨ht, ihb hb, by rwa [lowered_step], ihr hr⟩

/-- A layout with blocks has an innermost one. -/
theorem found_ne_nil {l : Layout Head} (h : l.height ≠ 0) :
    (l.pieces k).filterMap Piece.found? ≠ [] := by
  induction l with
  | text t => exact absurd rfl h
  | block t hd b r ihb _ =>
    by_cases hflat : b.height = 0
    · obtain ⟨u, rfl⟩ := exists_text_of_height_eq_zero hflat
      simp [pieces_block_text, Piece.found?]
    · rw [pieces_block k t hd hflat]
      simp only [List.filterMap_append, ne_eq, List.append_eq_nil_iff, not_and]
      exact fun _ _ hb => absurd hb (ihb hflat)

/-- Everything that a scan finds is a block with its head. -/
theorem exists_hit_of_mem_found {l : Layout Head} {f : Hit}
    (h : f ∈ (l.pieces k).filterMap Piece.found?) : ∃ hd body, f = k.hit hd body := by
  induction l with
  | text t =>
    rw [pieces, filterMap_found?_char] at h
    simp at h
  | block t hd b r ihb ihr =>
    by_cases hflat : b.height = 0
    · obtain ⟨u, rfl⟩ := exists_text_of_height_eq_zero hflat
      rw [pieces_block_text, List.filterMap_append, filterMap_found?_char] at h
      rcases List.mem_cons.mp h with rfl | h
      · exact ⟨hd, u, rfl⟩
      · exact ihr h
    · rw [pieces_block k t hd hflat] at h
      simp only [List.filterMap_append, filterMap_found?_char, List.nil_append,
        List.mem_append] at h
      rcases h with h | h
      · exact ihb h
      · exact ihr h

/-! ### All passes -/

/-- In a layout without blocks a pass finds nothing. -/
theorem pass?_written_of_height_eq_zero {k : BlockKind Head Hit} {l : Layout Head}
    (hl : l.Tidy k) (h : l.height = 0) : pass? k.match? k.lower (l.written k) = none := by
  obtain ⟨t, rfl⟩ := exists_text_of_height_eq_zero h
  simp only [pass?, pieces_written hl, pieces, filterMap_found?_char, List.isEmpty_nil, if_true]

/-- A pass over a layout with blocks lowers the innermost ones. -/
theorem pass?_written {k : BlockKind Head Hit} {l : Layout Head} (hl : l.Tidy k)
    (h : l.height ≠ 0) : pass? k.match? k.lower (l.written k) =
      some ((l.step k).written k, (l.pieces k).filterMap Piece.found?) := by
  have hne : ((l.pieces k).filterMap Piece.found?).isEmpty = false := by
    simpa using found_ne_nil k h
  simp only [pass?, pieces_written hl, flatMap_text_pieces, hne, Bool.false_eq_true, if_false]

/-- **Settling is bottom-up.** With more passes than blocks are deep, a tidy layout becomes its
bottom-up value. -/
theorem settle_written {k : BlockKind Head Hit} {l : Layout Head} (hl : l.Tidy k) {n : ℕ}
    (hn : l.height < n) : (settle k.match? k.lower n (l.written k)).1 = l.lowered k := by
  induction n generalizing l with
  | zero => omega
  | succ n ih =>
    rw [settle]
    by_cases h : l.height = 0
    · rw [pass?_written_of_height_eq_zero hl h]
      obtain ⟨t, rfl⟩ := exists_text_of_height_eq_zero h
      rfl
    · rw [pass?_written hl h]
      have := ih hl.step (by rw [height_step]; omega)
      rw [lowered_step] at this
      exact this

/-- Everything that settling a tidy layout lowers is a block with its head. -/
theorem exists_hit_of_mem_settle {k : BlockKind Head Hit} {l : Layout Head} (hl : l.Tidy k)
    {n : ℕ} {f : Hit} (hf : f ∈ (settle k.match? k.lower n (l.written k)).2) :
    ∃ hd body, f = k.hit hd body := by
  induction n generalizing l with
  | zero => simp [settle] at hf
  | succ n ih =>
    rw [settle] at hf
    by_cases h : l.height = 0
    · rw [pass?_written_of_height_eq_zero hl h] at hf
      simp at hf
    · rw [pass?_written hl h] at hf
      rcases List.mem_append.mp hf with hf | hf
      · exact exists_hit_of_mem_found k hf
      · exact ih hl.step hf

/-- Blocks are no deeper than the text is long. -/
theorem height_le_length_written (l : Layout Head) : l.height ≤ (l.written k).length := by
  induction l with
  | text t => exact Nat.zero_le _
  | block t h b r ihb ihr =>
    have hpos : 0 < (k.start h).length :=
      List.length_pos_of_ne_nil ((k.opening_prefix_start h).ne_nil k.opening_ne_nil)
    simp only [height, written, List.length_append]
    omega

end Layout

/-! ### Settled texts -/

/-- A text **settles to** another one when it has a tidy layout with that bottom-up value. -/
def SettlesTo {Head Hit : Type} (k : BlockKind Head Hit) (t t' : Text) : Prop :=
  ∃ l : Layout Head, l.Tidy k ∧ l.written k = t ∧ l.lowered k = t'

section SettlesTo

variable {Head Hit : Type} {k : BlockKind Head Hit} {t t' u u' : Text}

theorem settlesTo_of_clear (h : Clear k.opening k.closing t) : SettlesTo k t t :=
  ⟨.text t, h, rfl, rfl⟩

/-- Texts side by side settle side by side. -/
theorem SettlesTo.append (ht : SettlesTo k t t') (hu : SettlesTo k u u') :
    SettlesTo k (t ++ u) (t' ++ u') := by
  obtain ⟨l, hl, rfl, rfl⟩ := ht
  obtain ⟨m, hm, rfl, rfl⟩ := hu
  exact ⟨l.append m, hl.append hm, by simp, by simp⟩

/-- What a text settles to has nothing left to lower. -/
theorem SettlesTo.pass?_eq_none (h : SettlesTo k t t') : pass? k.match? k.lower t' = none := by
  obtain ⟨l, hl, -, rfl⟩ := h
  exact Layout.pass?_written_of_height_eq_zero (l := .text (l.lowered k)) hl.clear_lowered rfl

/-- A block settles to what its head makes of what its body settles to. -/
theorem SettlesTo.block {h : Head} (ht : SettlesTo k t t') (hlower : k.lower (k.hit h t') = u)
    (hu : Clear k.opening k.closing u) : SettlesTo k (k.start h ++ (t ++ k.closing)) u := by
  obtain ⟨l, hl, rfl, rfl⟩ := ht
  subst hlower
  exact ⟨.block [] h l (.text []), ⟨clear_nil, hl, hu, clear_nil⟩, by simp [Layout.written],
    by simp [Layout.lowered]⟩

/-- **Enough passes.** As many passes as the text has characters, and one more, settle it; all they
lower is blocks with their heads. -/
theorem SettlesTo.settle (h : SettlesTo k t t') :
    (settle k.match? k.lower (t.length + 1) t).1 = t' ∧
      ∀ f ∈ (settle k.match? k.lower (t.length + 1) t).2, ∃ hd body, f = k.hit hd body := by
  obtain ⟨l, hl, rfl, rfl⟩ := h
  exact ⟨l.settle_written hl (Nat.lt_succ_of_le (l.height_le_length_written k)),
    fun f hf => Layout.exists_hit_of_mem_settle hl hf⟩

end SettlesTo

end Stencil.Template
