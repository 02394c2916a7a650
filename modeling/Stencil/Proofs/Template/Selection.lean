import Stencil.Proofs.Condition
import Stencil.Proofs.Template.Meaning

/-!
# What a conditional selects

The body of a conditional has two regions: what stands in its alternative, and all the rest. Once it is
lowered, the blocks of its condition stand around them (`selection`), one inside the other, each with
the alternative in it, so that the text has the alternative as often as there are conjuncts.

The main statement is `lowerConditional_selects`: whatever the data, **the blocks show one of the two
regions, once, and the first one exactly if the condition is true.** The regions are texts there that
are shown as they are. They may be templates of their own as well: the blocks are read off the text
around whatever is read off the regions (`read_lowerConditional`), and show what that shows
(`shown_selection`).
-/

namespace Stencil.Template

open Text

/-- The body of a conditional without its alternative region. -/
def mainRegion (body : Text) : Text :=
  match alternative? body with
  | none => body
  | some a => a.before ++ a.after

/-- The blocks of a condition around the regions of a body. -/
def selection (condition body : Text) (main alternative : Content) : Content :=
  match alternative? body with
  | none => main.enclose (Condition.splitConjuncts condition)
  | some _ => alternative.encloseWith main (Condition.splitConjuncts condition)

section Selection

variable {raw : Option Text} {condition body : Text} {main alternative : Content}

/-! ### The text of the blocks -/

/-- Only the empty run has no text. -/
theorem Content.eq_text_nil {b : Content} (h : b.written = []) : b = .text [] := by
  cases b with
  | text t => rw [show t = [] from h]
  | reference t p r => simp [written, braced] at h
  | loop t a v b r => cases v <;> simp [written, loopOpening, braced] at h
  | conditional t n p b r => simp [written, Block.of, braced] at h
  | choice t n p b a r => simp [written, Block.of, braced] at h

variable (hvalid : Condition.validateText (decodeCondition raw) = .ok condition)
  (hmain : main.written = mainRegion body) (halternative : alternative.written = hiddenConditional body)

include hvalid hmain halternative

/-- A conditional is lowered to its blocks around the texts of its regions. -/
theorem written_selection :
    (selection condition body main alternative).written = lowerConditional ⟨raw, body⟩ := by
  unfold mainRegion at hmain
  unfold hiddenConditional at halternative
  rw [lowerConditional, hvalid]
  dsimp only
  rw [selection, shownConditional, blocks]
  cases ha : alternative? body with
  | none =>
    rw [ha] at hmain
    dsimp only at hmain ⊢
    rw [← hmain, Content.written_enclose]
  | some a =>
    rw [ha] at hmain halternative
    dsimp only at hmain halternative ⊢
    rw [← hmain, ← halternative, Content.written_encloseWith]

/-- **Reading.** The blocks are read off the lowered conditional around what is read off its regions. -/
theorem read_lowerConditional (hm : main.Readable) (ha : alternative.Readable) :
    Content.read (lowerConditional ⟨raw, body⟩) = some (selection condition body main alternative) := by
  rw [← written_selection hvalid hmain halternative]
  refine Content.read_written ?_
  have hpaths : ∀ x ∈ Condition.splitConjuncts condition, '\x7d' ∉ (conjunctPath x).2 :=
    fun x hx => not_mem_conjunctPath (by decide) hvalid hx
  unfold selection
  generalize Condition.splitConjuncts condition = xs at hpaths
  split
  · exact Content.readable_enclose hpaths hm
  · exact Content.readable_encloseWith hpaths hm ha

omit hvalid hmain in
/-- **Selecting.** The blocks show the first region if every conjunct holds, and else the alternative. -/
theorem shown_selection (print : Value → Pass Text)
    (find : List (Option Text × Value) → Text → Value) (items : List (Option Text × Value)) :
    (selection condition body main alternative).shown print find items =
      if (Condition.splitConjuncts condition).all fun x =>
          shows find items (conjunctPath x).1 (conjunctPath x).2 then main.shown print find items
      else alternative.shown print find items := by
  unfold hiddenConditional at halternative
  unfold selection
  cases ha : alternative? body with
  | none =>
    -- without an alternative nothing is shown, and that is what the empty region shows
    rw [ha] at halternative
    rw [Content.eq_text_nil halternative]
    exact Content.shown_enclose print find main items _
  | some a => exact Content.shown_encloseWith print find main alternative items _

end Selection

/-! ### Texts as regions -/

/-- The regions of a body are parts of it. -/
theorem mem_of_mem_mainRegion {c : Char} {body : Text} (h : c ∈ mainRegion body) : c ∈ body := by
  unfold mainRegion at h
  cases ha : alternative? body with
  | none => rwa [ha] at h
  | some a =>
    rw [ha] at h
    rw [eq_of_alternative? ha]
    simp only [List.mem_append] at h ⊢
    tauto

theorem mem_of_mem_hiddenConditional {c : Char} {body : Text} (h : c ∈ hiddenConditional body) :
    c ∈ body := by
  unfold hiddenConditional at h
  cases ha : alternative? body with
  | none => simp [ha] at h
  | some a =>
    rw [ha] at h
    rw [eq_of_alternative? ha]
    simp only [List.mem_append]
    tauto

section Texts

variable {raw : Option Text} {condition : Text} {data : Value}

/-- **Conjunctions.** A conditional whose condition has no alternatives is lowered to blocks that show
the first region of its body exactly if the condition is true, and else the second one. The condition
has a value exactly if there is one at the path of every block. -/
theorem lowerConditional_selects
    (hvalid : Condition.validateText (decodeCondition raw) = .ok condition)
    (habsent : ¬ Condition.orSign <:+: decodeCondition raw) (hdata : data.isNothing = false)
    (body : Text) :
    let b := selection condition body (.text (mainRegion body)) (.text (hiddenConditional body))
    b.written = lowerConditional ⟨raw, body⟩ ∧
      ('\x7b' ∉ body → Content.read (lowerConditional ⟨raw, body⟩) = some b) ∧
      (∀ holds, Condition.evaluate (.str (String.ofList (decodeCondition raw))) data = .ok holds →
        ∀ print, b.shown print (fun _ path => data.resolve path) [] =
          pure (if holds then mainRegion body else hiddenConditional body)) ∧
      ((∃ holds, Condition.evaluate (.str (String.ofList (decodeCondition raw))) data = .ok holds) ↔
        ∀ x ∈ Condition.splitConjuncts condition, ∃ v, data.lookup (conjunctPath x).2 = .ok v) := by
  have hevaluate := Condition.evaluate_eq_map hvalid habsent hdata
  refine ⟨written_selection hvalid rfl rfl, fun hbrace => ?_, fun holds hholds print => ?_, ?_⟩
  · refine read_lowerConditional hvalid rfl rfl (fun hmem => hbrace ?_) (fun hmem => hbrace ?_)
    · exact mem_of_mem_mainRegion hmem
    · exact mem_of_mem_hiddenConditional hmem
  · have htrue : holds = (Condition.splitConjuncts condition).all fun x =>
        shows (fun _ path => data.resolve path) [] (conjunctPath x).1 (conjunctPath x).2 := by
      rw [hevaluate] at hholds
      cases hpaths : Condition.checkPaths (decodeCondition raw) with
      | error failure => simp [hpaths, Except.map] at hholds
      | ok _ =>
        rw [hpaths] at hholds
        exact (Except.ok.inj hholds).symm
    rw [shown_selection rfl, ← htrue]
    cases holds <;> rfl
  · have hpaths : Condition.checkPaths (decodeCondition raw) = .ok () ↔
        ∀ x ∈ Condition.splitConjuncts condition, ∃ v, data.lookup (conjunctPath x).2 = .ok v := by
      rw [Condition.checkPaths_eq_ok_iff, Condition.paths_eq hvalid habsent, List.forall_mem_map]
      refine forall₂_congr fun x _ => ?_
      simp [Value.lookup_eq_ok_iff]
    rw [← hpaths, hevaluate]
    cases Condition.checkPaths (decodeCondition raw) with
    | error failure => simp [Except.map]
    | ok _ => simp [Except.map]

/-- A condition of three conjuncts, as it stands in an attribute. -/
def offerCondition : Option Text := some " user.name &amp;&amp; !! user.age&amp;&amp;!user.vip ".toList

/-- A body with an alternative. -/
def offerBody : Text := "<b>Join</b><hb-else>Welcome</hb-else>!".toList

/-- A user, with some more entries. -/
def user (entries : Mapping) : Value :=
  .map [(.str "user", .map ([(.str "name", .str "Ada"), (.str "age", .int 36)] ++ entries))]

/-- What a computed result is, if it is one. -/
theorem eq_ok_of_toOption {ε α : Type} {result : Except ε α} {a : α} (h : result.toOption = some a) :
    result = .ok a := by
  cases result with
  | error e => simp [Except.toOption] at h
  | ok b => rw [Option.some.inj h]

theorem lowerConditional_offer :
    lowerConditional ⟨offerCondition, offerBody⟩ =
        ("\x7b\x7b#if user.name\x7d\x7d\x7b\x7b#if user.age\x7d\x7d\x7b\x7b#unless user.vip\x7d\x7d" ++
          "<b>Join</b>!\x7b\x7belse\x7d\x7dWelcome\x7b\x7b/unless\x7d\x7d" ++
          "\x7b\x7belse\x7d\x7dWelcome\x7b\x7b/if\x7d\x7d" ++
          "\x7b\x7belse\x7d\x7dWelcome\x7b\x7b/if\x7d\x7d").toList ∧
      ∃ b, Content.read (lowerConditional ⟨offerCondition, offerBody⟩) = some b ∧
        (∀ print, b.shown print (fun _ path => (user []).resolve path) [] =
          pure "<b>Join</b>!".toList) ∧
        ∀ print, b.shown print (fun _ path => (user [(.str "vip", .bool true)]).resolve path) [] =
          pure "Welcome".toList := by
  have hchecked : (Condition.validateText (decodeCondition offerCondition)).toOption =
      some "user.name && !! user.age&&!user.vip".toList := by decide +kernel
  have habsent : ¬ Condition.orSign <:+: decodeCondition offerCondition := by decide +kernel
  have hregions : mainRegion offerBody = "<b>Join</b>!".toList ∧
      hiddenConditional offerBody = "Welcome".toList := by decide +kernel
  have hnew : (Condition.evaluate (.str (String.ofList (decodeCondition offerCondition)))
      (user [])).toOption = some true := by decide +kernel
  have hvip : (Condition.evaluate (.str (String.ofList (decodeCondition offerCondition)))
      (user [(.str "vip", .bool true)])).toOption = some false := by decide +kernel
  refine ⟨by decide +kernel, ?_⟩
  obtain ⟨-, hread, hshown, -⟩ := lowerConditional_selects
    (eq_ok_of_toOption hchecked) habsent (show (user []).isNothing = false from rfl) offerBody
  obtain ⟨-, -, hother, -⟩ := lowerConditional_selects
    (eq_ok_of_toOption hchecked) habsent
    (show (user [(.str "vip", .bool true)]).isNothing = false from rfl) offerBody
  rw [← hregions.1, ← hregions.2]
  exact ⟨_, hread (by decide +kernel), hshown true (eq_ok_of_toOption hnew),
    hother false (eq_ok_of_toOption hvip)⟩

end Texts

end Stencil.Template
