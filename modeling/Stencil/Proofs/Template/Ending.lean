import Stencil.Proofs.Template.Settling

/-!
# How lowering ends

Settling tells what the passes over a text come to. But a pass also writes down what it lowers, and
that can fail: a reference by a number of too many digits cannot be read (`IsOverlong`). Then there is
no next pass, and no text. `Ends` tells the passes with their notes, and what they end with is unique
(`Ends.unique`).

* A conditional is noted exactly if its condition can be read.
* A loop of a text without references is always noted.

The main statement is `lowerTags_ends`: **the passes over the conditionals of any text come to an end**,
with a text that has no conditional left or, exactly if some conditional has a condition that cannot be
read, with a failure; **and those over the loops of a text without references come to an end** with a
text that has no loop left. Without the failure it would not be true of every text
(`lowerTags_overlongConditional_ne`).
-/

namespace Stencil.Template

open Text

/-! ### Passes with notes -/

section Ends

variable {α : Type} {m : Text.Matcher α} {lower : α → Text} {note : α → Work Unit}

/-- **Passes with notes.** What the passes over a text end with, and after how many of them: a text
that a pass does nothing to, or the failure of a note. -/
inductive Ends (m : Text.Matcher α) (lower : α → Text) (note : α → Work Unit) :
    ℕ → Text → Journal → Except Failure Text × Journal → Prop where
  /-- There is nothing to lower. -/
  | done {t : Text} {journal : Journal} (nothing : pass? m lower t = none) :
      Ends m lower note 0 t journal (.ok t, journal)
  /-- A pass with a note that fails. -/
  | fail {t t' : Text} {now : List α} {journal journal' : Journal} {failure : Failure}
      (next : pass? m lower t = some (t', now))
      (notes : now.forM note journal = (.error failure, journal')) :
      Ends m lower note 1 t journal (.error failure, journal')
  /-- A pass with its notes, and all that follow it. -/
  | pass {n : ℕ} {t t' : Text} {now : List α} {journal journal' : Journal}
      {result : Except Failure Text × Journal} (next : pass? m lower t = some (t', now))
      (notes : now.forM note journal = (.ok (), journal'))
      (rest : Ends m lower note n t' journal' result) :
      Ends m lower note (n + 1) t journal result

/-- The passes over a text end in one way only. -/
theorem Ends.unique {n k : ℕ} {t : Text} {journal : Journal}
    {result other : Except Failure Text × Journal} (h : Ends m lower note n t journal result)
    (h' : Ends m lower note k t journal other) : n = k ∧ result = other := by
  -- a pass has one outcome, and so have its notes, so both go on in the same way
  induction h generalizing k with
  | done nothing =>
    cases h' with
    | done => exact ⟨rfl, rfl⟩
    | fail next => cases nothing.symm.trans next
    | pass next => cases nothing.symm.trans next
  | fail next notes =>
    cases h' with
    | done nothing => cases nothing.symm.trans next
    | fail next' notes' =>
      cases next.symm.trans next'
      cases notes.symm.trans notes'
      exact ⟨rfl, rfl⟩
    | pass next' notes' =>
      cases next.symm.trans next'
      cases notes.symm.trans notes'
  | pass next notes _ ih =>
    cases h' with
    | done nothing => cases nothing.symm.trans next
    | fail next' notes' =>
      cases next.symm.trans next'
      cases notes.symm.trans notes'
    | pass next' notes' rest' =>
      cases next.symm.trans next'
      cases notes.symm.trans notes'
      obtain ⟨rfl, heq⟩ := ih rest'
      exact ⟨rfl, heq⟩

/-- What settling comes to, once all that is lowered has been noted. -/
def noted (note : α → Work Unit) (settled : Text × List α) : Work Text := do
  settled.2.forM note
  pure settled.1

/-- Notes on two lists are notes on the first one and then on the second one. -/
private theorem noted_append (u : Text) (now later : List α) :
    noted note (u, now ++ later) = (do now.forM note; noted note (u, later)) := by
  have happend : (now ++ later).forM note = (do now.forM note; later.forM note) := List.forM_append
  rw [noted, noted, happend, bind_assoc]

/-- **Settling with notes.** If the passes over a text come to an end, they do so with their notes,
and no later. -/
theorem Settles.ends {n bound : ℕ} {t u : Text} (h : Settles m lower n t u) (hn : n ≤ bound)
    (journal : Journal) :
    ∃ k ≤ n, Ends m lower note k t journal (noted note (settle m lower bound t) journal) := by
  induction h generalizing bound journal with
  | done nothing =>
    rw [settle_of_pass?_eq_none nothing]
    exact ⟨0, le_refl 0, .done nothing⟩
  | @pass n t t' u now next rest ih =>
    obtain ⟨bound, rfl⟩ : ∃ b, bound = b + 1 := ⟨bound - 1, by omega⟩
    rw [settle, next]
    dsimp only
    rw [noted_append]
    cases hnow : now.forM note journal with
    | mk result journal' =>
      cases result with
      | error failure =>
        rw [Work.bind_of_error hnow]
        exact ⟨1, by omega, .fail next hnow⟩
      | ok _ =>
        obtain ⟨k, hk, hends⟩ := ih (show n ≤ bound by omega) journal'
        rw [Work.bind_of_ok hnow]
        exact ⟨k + 1, by omega, .pass next hnow hends⟩

end Ends

/-! ### References that cannot be read -/

/-- A text with a reference by a number of too many digits. -/
def IsOverlong (value : Text) : Prop :=
  ∃ digits ∈ findAll decimalReference? value, Decimal.digitLimit < digits.length

instance : DecidablePred IsOverlong := fun value =>
  inferInstanceAs (Decidable (∃ digits ∈ findAll decimalReference? value,
    Decimal.digitLimit < digits.length))

section IsOverlong

variable {value : Text}

theorem checkReferences_of_not_isOverlong (h : ¬ IsOverlong value) :
    checkReferences value = .ok () :=
  forM_eq_ok_iff.mpr fun digits hdigits => Decimal.checkDigits_of_length_le <|
    Nat.not_lt.mp fun hlength => h ⟨digits, hdigits, hlength⟩

/-- A reference by a number of too many digits is refused, whatever is in front of it. -/
theorem exists_checkReferences_eq_error (h : IsOverlong value) :
    ∃ count, Decimal.digitLimit < count ∧
      checkReferences value = .error (.tooManyDigits count) := by
  obtain ⟨digits, hdigits, hlength⟩ := h
  have hrefused : checkReferences value ≠ .ok () := fun hall => by
    have hcheck := forM_eq_ok_iff.mp hall digits hdigits
    rw [Decimal.checkDigits, if_pos hlength] at hcheck
    cases hcheck
  obtain ⟨first, -, failure, hcheck, hall⟩ := exists_forM_eq_error hrefused
  rw [Decimal.checkDigits] at hcheck
  split_ifs at hcheck with hfirst
  exact ⟨first.length, hfirst, hall.trans hcheck.symm⟩

/-- A reference by a number of too many digits at the front of a text. -/
theorem isOverlong_reference {digits rest : Text} (hdigits : ∀ d ∈ digits, isAsciiDigit d = true)
    (hlimit : Decimal.digitLimit < digits.length) (hrest : rest.takeWhile isAsciiDigit = []) :
    IsOverlong ('&' :: '#' :: (digits ++ rest)) := by
  have htaken : (digits ++ rest).takeWhile isAsciiDigit = digits := by
    rw [List.takeWhile_append_of_pos hdigits, hrest, List.append_nil]
  have hreference : decimalReference? (('&' :: '#' :: digits) ++ rest) = some (digits, rest) := by
    rw [List.cons_append, List.cons_append, decimalReference?, htaken]
    cases digits with
    | nil => simp at hlimit
    | cons d ds => simp
  refine ⟨digits, ?_, hlimit⟩
  have hpieces := pieces_append_of_some (List.cons_ne_nil _ _) hreference
  simp only [List.cons_append] at hpieces
  simp [findAll, hpieces, Piece.found?]

/-- A text without references has none that cannot be read. -/
theorem not_isOverlong_of_not_mem (h : '&' ∉ value) : ¬ IsOverlong value := by
  have hnone : findAll decimalReference? value = [] := by
    refine found_eq_nil_iff.mpr fun s hs => ?_
    have hwithout : '&' ∉ s := fun hmem => h (hs.subset hmem)
    unfold decimalReference?
    split
    · simp at hwithout
    · rfl
  rintro ⟨digits, hdigits, -⟩
  rw [hnone] at hdigits
  cases hdigits

end IsOverlong

/-! ### Conditionals -/

/-- Lowers all conditionals of a text and writes them down. -/
def lowerConditionalTags (t : Text) : Work Text := noted noteConditional (lowerConditionals t)

/-- A conditional with a condition that cannot be read is not noted. -/
theorem exists_noteConditional_eq_error {c : Conditional} (h : IsOverlong (c.condition.getD []))
    (journal : Journal) :
    ∃ count, Decimal.digitLimit < count ∧
      noteConditional c journal = (.error (.tooManyDigits count), journal) := by
  obtain ⟨count, hcount, hcheck⟩ := exists_checkReferences_eq_error h
  refine ⟨count, hcount, Work.bind_of_error ?_⟩
  rw [Work.ofResult, readCondition, hcheck]
  rfl

/-- Conditionals are noted up to the first one with a condition that cannot be read. -/
theorem forM_noteConditional_of_isOverlong {found : List Conditional}
    (h : ∃ c ∈ found, IsOverlong (c.condition.getD [])) (journal : Journal) :
    ∃ count journal', Decimal.digitLimit < count ∧
      found.forM noteConditional journal = (.error (.tooManyDigits count), journal') := by
  induction found generalizing journal with
  | nil => simp at h
  | cons c cs ih =>
    by_cases hc : IsOverlong (c.condition.getD [])
    · obtain ⟨count, hcount, hnote⟩ := exists_noteConditional_eq_error hc journal
      exact ⟨count, journal, hcount, Work.bind_of_error hnote⟩
    · obtain ⟨d, hd, hoverlong⟩ := h
      have hrest : ∃ d ∈ cs, IsOverlong (d.condition.getD []) := by
        obtain rfl | hd := List.mem_cons.mp hd
        · exact absurd hoverlong hc
        · exact ⟨d, hd, hoverlong⟩
      have hnote := noteConditional_of_ok (checkReferences_of_not_isOverlong hc) journal
      obtain ⟨count, journal', hcount, hnotes⟩ := ih hrest (journal ++ conditionalEvents c)
      exact ⟨count, journal', hcount, (Work.bind_of_ok hnote).trans hnotes⟩

/-- A conditional as it is written, with its condition as it stands in the quotes. -/
def quotedConditional (value body : Text) : Text :=
  ifOpening ++ ' ' :: ("condition".toList ++ ['=', '"'] ++
    (value ++ '"' :: '>' :: (body ++ ifClosing)))

/-- A written conditional with plain text in it is lowered. -/
theorem mem_lowerConditionals_quotedConditional {value body : Text} (hvalue : '"' ∉ value)
    (hbody : '<' ∉ body) :
    ⟨some value, body⟩ ∈ (lowerConditionals (quotedConditional value body)).2 := by
  have hclear : Clear ifOpening ifClosing body := by
    rw [ifOpening_eq, ifClosing_eq]
    exact clear_of_not_mem hbody
  have hread : conditional? (quotedConditional value body ++ []) =
      some (⟨some value, body⟩, []) := by
    have hrest : restAndBody? ifOpening ifClosing ('>' :: (body ++ ifClosing)) = some (body, []) := by
      have hend := bodyUntil?_append hclear (by simp [ifClosing_eq]) []
      rw [List.append_nil] at hend
      exact hend
    rw [List.append_nil, quotedConditional, conditional?, after?_append, Option.bind_eq_bind,
      Option.bind_some, conditionalWith?, attribute?_quoted (by decide) hvalue]
    simp only [Option.bind_eq_bind, Option.bind_some, hrest]
    rfl
  have hpieces := pieces_append_of_some (by simp [quotedConditional, ifOpening_eq]) hread
  rw [List.append_nil] at hpieces
  refine mem_settle_of_mem_findAll ?_ _
  rw [findAll, hpieces]
  exact List.mem_cons_self

/-- The passes over the conditionals of any text come to an end with their notes. -/
theorem lowerConditionalTags_ends (t : Text) (journal : Journal) :
    ∃ n ≤ tagCount t, Ends conditional? lowerConditional noteConditional n t journal
      (lowerConditionalTags t journal) := by
  obtain ⟨n, hn, hsettles⟩ := settles_lowerConditionals t
  have hbound : n ≤ t.length + 1 := (hn.trans (tagCount_le_length t)).trans (Nat.le_succ _)
  obtain ⟨k, hk, hends⟩ := hsettles.ends hbound journal
  exact ⟨k, hk.trans hn, hends⟩

/-- They end with a failure if a condition cannot be read. -/
theorem lowerConditionalTags_of_isOverlong {t : Text}
    (h : ∃ c ∈ (lowerConditionals t).2, IsOverlong (c.condition.getD [])) (journal : Journal) :
    ∃ count journal', Decimal.digitLimit < count ∧
      lowerConditionalTags t journal = (.error (.tooManyDigits count), journal') := by
  obtain ⟨count, journal', hcount, hnotes⟩ := forM_noteConditional_of_isOverlong h journal
  exact ⟨count, journal', hcount, Work.bind_of_error hnotes⟩

/-- They end with a text if every condition can be read. -/
theorem lowerConditionalTags_of_not_isOverlong {t : Text}
    (h : ∀ c ∈ (lowerConditionals t).2, ¬ IsOverlong (c.condition.getD [])) (journal : Journal) :
    ∃ journal', lowerConditionalTags t journal = (.ok (lowerConditionals t).1, journal') := by
  have hnote : ∀ c ∈ (lowerConditionals t).2, ∀ journal,
      ∃ journal', noteConditional c journal = (.ok (), journal') := fun c hc journal =>
    ⟨_, noteConditional_of_ok (checkReferences_of_not_isOverlong (h c hc)) journal⟩
  obtain ⟨journal', hnotes⟩ := forM_note hnote journal
  exact ⟨journal', Work.bind_of_ok hnotes⟩

/-! ### Loops -/

/-- Lowers all loops of a text and writes them down. -/
def lowerLoopTags (t : Text) : Work Text := noted noteLoop (lowerLoops t)

/-- Every loop that is lowered in a text without references is noted. -/
theorem noteLoop_of_mem_lowerLoops {t : Text} (h : '&' ∉ t) {l : Loop} (hl : l ∈ (lowerLoops t).2)
    (journal : Journal) : noteLoop l journal = (.ok (), journal ++ [.loop]) := by
  obtain ⟨n, hn⟩ := exists_lowerLoops_eq t
  rw [hn] at hl
  obtain ⟨u, s, rest, hu, hs, hloop⟩ := shrinks_loops.exists_of_mem_settle h hl
  obtain ⟨inside, rfl, -, ⟨harray, -⟩, hname⟩ := exists_names_of_loop? hloop
  have hinside : '&' ∉ inside := fun hmem => hu (hs.subset (by simp [hmem]))
  have hitem : '&' ∉ l.itemVar.getD [] := by
    cases hcase : l.itemVar with
    | none => exact List.not_mem_nil
    | some name => exact fun hmem => hinside ((hname name hcase).1.subset hmem)
  exact noteLoop_of_ok
    (checkReferences_of_not_isOverlong <| not_isOverlong_of_not_mem fun hmem =>
      hinside (harray.subset hmem))
    (checkReferences_of_not_isOverlong (not_isOverlong_of_not_mem hitem)) journal

/-- The passes over the loops of a text without references come to an end with their notes, and with
a text in which no loop is recognised. -/
theorem lowerLoopTags_ends {t : Text} (h : '&' ∉ t) (journal : Journal) :
    ∃ u journal', lowerLoopTags t journal = (.ok u, journal') ∧
      (∃ n ≤ t.count '"', Ends loop? lowerLoop noteLoop n t journal (.ok u, journal')) ∧
      ∀ s, s <:+ u → loop? s = none := by
  obtain ⟨n, hn, hsettles⟩ := settles_lowerLoops h
  have hall : lowerLoops t = settle loop? lowerLoop n t := lowerLoops_eq <| by
    rw [hsettles.settle_eq (le_refl n)]
    exact hsettles.pass?_eq_none
  obtain ⟨journal', hnotes⟩ := forM_note
    (fun l hl journal => ⟨_, noteLoop_of_mem_lowerLoops h hl journal⟩) journal
  have hresult : lowerLoopTags t journal = (.ok (lowerLoops t).1, journal') :=
    Work.bind_of_ok hnotes
  obtain ⟨k, hk, hends⟩ := hsettles.ends (le_refl n) journal
  rw [← hall] at hends
  refine ⟨_, journal', hresult, ⟨k, hk.trans hn, ?_⟩, pass?_eq_none_iff.mp hsettles.pass?_eq_none⟩
  rw [← hresult]
  exact hends

/-! ### Both kinds -/

/-- Lowering a text is lowering the conditionals and then the loops. -/
theorem lowerTags_eq (t : Text) : lowerTags t = lowerConditionalTags t >>= lowerLoopTags := by
  rw [lowerConditionalTags, noted, bind_assoc]
  rfl

/-- The failure of the conditionals is that of the whole. -/
theorem lowerTags_of_error {t : Text} {journal journal' : Journal} {failure : Failure}
    (h : lowerConditionalTags t journal = (.error failure, journal')) :
    lowerTags t journal = (.error failure, journal') := by
  rw [lowerTags_eq]
  exact Work.bind_of_error h

/-- **Termination.** The passes over the conditionals of any text come to an end: with a failure if
some conditional has a condition that cannot be read, and else with a text in which no conditional is
recognised. Those over the loops of a text without references come to an end with a text in which no
loop is. -/
theorem lowerTags_ends (t : Text) (journal : Journal) :
    (∃ n ≤ tagCount t, Ends conditional? lowerConditional noteConditional n t journal
        (lowerConditionalTags t journal)) ∧
      ((∃ c ∈ (lowerConditionals t).2, IsOverlong (c.condition.getD [])) →
        ∃ count journal', Decimal.digitLimit < count ∧
          lowerConditionalTags t journal = (.error (.tooManyDigits count), journal') ∧
          lowerTags t journal = (.error (.tooManyDigits count), journal')) ∧
      ((∀ c ∈ (lowerConditionals t).2, ¬ IsOverlong (c.condition.getD [])) →
        ∃ u journal', lowerConditionalTags t journal = (.ok u, journal') ∧
          (∀ s, s <:+ u → conditional? s = none) ∧
          lowerTags t journal = lowerLoopTags u journal') ∧
      ('&' ∉ t →
        ∃ u journal', lowerLoopTags t journal = (.ok u, journal') ∧
          (∃ n ≤ t.count '"', Ends loop? lowerLoop noteLoop n t journal (.ok u, journal')) ∧
          ∀ s, s <:+ u → loop? s = none) := by
  obtain ⟨n, -, hsettles⟩ := settles_lowerConditionals t
  refine ⟨lowerConditionalTags_ends t journal, fun hoverlong => ?_, fun hreadable => ?_,
    fun hreference => lowerLoopTags_ends hreference journal⟩
  · obtain ⟨count, journal', hcount, hfails⟩ := lowerConditionalTags_of_isOverlong hoverlong journal
    exact ⟨count, journal', hcount, hfails, lowerTags_of_error hfails⟩
  · obtain ⟨journal', hresult⟩ := lowerConditionalTags_of_not_isOverlong hreadable journal
    refine ⟨_, journal', hresult, pass?_eq_none_iff.mp hsettles.pass?_eq_none, ?_⟩
    rw [lowerTags_eq]
    exact Work.bind_of_ok hresult

/-- A conditional that only forms when the hidden one between its halves is gone, and a loop. -/
def glued : Text :=
  ("<hb-<hb-if>x</hb-if>if condition=\"a\">y</hb-if>" ++
    "<hb-each array=\"rows\">\x7b\x7brows.[0].id\x7d\x7d</hb-each>").toList

/-- A condition with a reference by a number of too many digits, which is of no use anyway. -/
def overlongCondition : Text := '&' :: '#' :: (List.replicate 4301 '1' ++ "; x".toList)

/-- A conditional with this condition. -/
def overlongConditional : Text := quotedConditional overlongCondition ['X']

theorem exists_isOverlong_overlongConditional :
    ∃ c ∈ (lowerConditionals overlongConditional).2, IsOverlong (c.condition.getD []) := by
  have hdigits : ∀ d ∈ List.replicate 4301 '1', isAsciiDigit d = true := fun d hd => by
    rw [List.eq_of_mem_replicate hd]
    rfl
  have hquote : '"' ∉ overlongCondition := by
    have hnone : ∀ d ∈ List.replicate 4301 '1', '"' ≠ d := fun d hd => by
      rw [List.eq_of_mem_replicate hd]
      decide
    rw [overlongCondition, List.mem_cons, List.mem_cons, List.mem_append, not_or, not_or, not_or]
    exact ⟨by decide, by decide, fun hmem => hnone _ hmem rfl, by decide⟩
  refine ⟨_, mem_lowerConditionals_quotedConditional hquote (by decide), ?_⟩
  exact isOverlong_reference hdigits (by rw [List.length_replicate]; decide) (by decide)

/-- The first text is lowered, the second one fails. -/
theorem lowerTags_glued :
    ('&' ∉ glued ∧ (∀ c ∈ (lowerConditionals glued).2, ¬ IsOverlong (c.condition.getD [])) ∧
        ∃ c ∈ (lowerConditionals overlongConditional).2, IsOverlong (c.condition.getD [])) ∧
      (∃ n ≤ tagCount glued, Ends conditional? lowerConditional noteConditional n glued []
        (lowerConditionalTags glued [])) ∧
      (∃ u journal, lowerConditionalTags glued [] = (.ok u, journal) ∧
        lowerTags glued [] = lowerLoopTags u journal) ∧
      (∃ u journal, lowerLoopTags glued [] = (.ok u, journal) ∧
        ∃ n ≤ glued.count '"', Ends loop? lowerLoop noteLoop n glued [] (.ok u, journal)) ∧
      (lowerTags glued []).1.toOption = some ("\x7b\x7b#if a\x7d\x7dy\x7b\x7b/if\x7d\x7d" ++
        "\x7b\x7b#each rows\x7d\x7d\x7b\x7bthis.id\x7d\x7d\x7b\x7b/each\x7d\x7d").toList ∧
      ∃ count journal, Decimal.digitLimit < count ∧
        lowerTags overlongConditional [] = (.error (.tooManyDigits count), journal) := by
  obtain ⟨hconditionals, -, hreadable, hloops⟩ := lowerTags_ends glued []
  obtain ⟨-, hfails, -⟩ := lowerTags_ends overlongConditional []
  have hreference : '&' ∉ glued := by decide +kernel
  have hall : ∀ c ∈ (lowerConditionals glued).2, ¬ IsOverlong (c.condition.getD []) := by
    decide +kernel
  obtain ⟨u, journal, hdecided, -, hlowered⟩ := hreadable hall
  obtain ⟨v, noted, htext, hends, -⟩ := hloops hreference
  obtain ⟨count, journal', hcount, -, hfailure⟩ := hfails exists_isOverlong_overlongConditional
  exact ⟨⟨hreference, hall, exists_isOverlong_overlongConditional⟩, hconditionals,
    ⟨u, journal, hdecided, hlowered⟩, ⟨v, noted, htext, hends⟩, by decide +kernel,
    count, journal', hcount, hfailure⟩

/-- **A failure.** The passes over its conditionals do not come to a text. -/
theorem lowerTags_overlongConditional_ne :
    (∃ count journal, Decimal.digitLimit < count ∧
      lowerTags overlongConditional [] = (.error (.tooManyDigits count), journal)) ∧
      ∀ n u journal, ¬ Ends conditional? lowerConditional noteConditional n overlongConditional []
        (.ok u, journal) := by
  obtain ⟨count, journal, hcount, hfails⟩ :=
    lowerConditionalTags_of_isOverlong exists_isOverlong_overlongConditional []
  obtain ⟨k, -, hends⟩ := lowerConditionalTags_ends overlongConditional []
  rw [hfails] at hends
  refine ⟨⟨count, journal, hcount, lowerTags_of_error hfails⟩, fun n u journal' htext => ?_⟩
  obtain ⟨-, hsame⟩ := htext.unique hends
  cases hsame

end Stencil.Template
