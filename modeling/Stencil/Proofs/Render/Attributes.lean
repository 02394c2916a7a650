import Stencil.Proofs.Component.Tame
import Stencil.Proofs.Render.Markers

/-!
# What the attributes of pseudo-tags say

Conditions, paths of arrays and item variables go through the markup as values of attributes: rendering
escapes them, reading finds them between the quotes, and lowering decodes what it finds.

The main statement is `attributes_read_back`: **what is written into an attribute is what is read out of
it.** That decoding undoes escaping is only half of it. The pattern for a tag may read the same text in more
than one way, with the attribute or without it, and takes whatever way has a body behind it; both ways end at
the same `>`, since no escaped text has one, so the attribute is never passed over.

Two things are not read back as they are. Braces around a whole condition are dropped, as a marker token
leaves them behind; and the path of an array in a loop is the one that is seen from the root (`fullPath`).
-/

namespace Stencil.Render

open Text Template Component

/-! ### Paths of arrays -/

/-- The path of an array as a tag shows it. -/
def fullPath (path : Text) : Option LoopScope → Text
  | none => path
  | some loop => continuedPath path loop.path.toList loop.itemVar.text?

theorem fullPath_ne_nil {path : Text} (h : path ≠ []) (loop : Option LoopScope) :
    fullPath path loop ≠ [] := by
  cases loop with
  | none => exact h
  | some loop =>
    rw [fullPath, continuedPath]
    dsimp only
    split_ifs
    · exact h
    all_goals simp

/-- The path that a loop in a loop is taken for. -/
theorem display_absolutePath {array path : Value} {p : String} {loop : Option LoopScope}
    (harray : array.text? = some p) (h : absolutePath array loop = .ok path) :
    path.display = fullPath p.toList loop := by
  cases loop with
  | none =>
    obtain rfl : array = path := Except.ok.inj h
    exact Value.display_of_text? harray
  | some loop =>
    rw [absolutePath] at h
    simp only [harray] at h
    cases hrelative : loop.relative array with
    | error failure =>
      rw [hrelative] at h
      cases h
    | ok relative =>
      rw [hrelative] at h
      obtain rfl := Except.ok.inj h
      simp [fullPath]

/-! ### Rendered tags -/

section Rendered

variable {isBuilding : Bool} {onward : Context → Value → Pass Text} {ctx : Context} {t : Text}

/-- A conditional for a template is written behind the tag of its condition. -/
theorem exists_of_mayReturn_renderIfTag {condition : Text} {ps : List Part}
    (h : MayReturn (renderIfTag ctx condition ps) t) :
    ∃ inside, t = ifTag condition ++ (inside ++ ifClosing) := by
  obtain ⟨first, -, h⟩ := exists_of_mayReturn_bind h
  have hend : ∀ middle, MayReturn (do
      let last ← renderParts ctx (splitParts ps).2.2
      pure ("<hb-if condition=\"".toList ++ Markup.escape condition ++ "\">".toList ++ first ++ middle ++
        last ++ "</hb-if>".toList)) t → ∃ inside, t = ifTag condition ++ (inside ++ ifClosing) := by
    intro middle h
    obtain ⟨last, -, h⟩ := exists_of_mayReturn_bind h
    obtain rfl := eq_of_mayReturn_pure h
    refine ⟨first ++ (middle ++ last), ?_⟩
    rw [ifTag_literal]
    simp only [List.append_assoc]
    rfl
  cases hregion : (splitParts ps).2.1 with
  | none =>
    simp only [hregion] at h
    obtain ⟨middle, -, h⟩ := exists_of_mayReturn_bind h
    exact hend middle h
  | some region =>
    simp only [hregion] at h
    obtain ⟨text, -, h⟩ := exists_of_mayReturn_bind h
    obtain ⟨middle, -, h⟩ := exists_of_mayReturn_bind h
    exact hend middle h

/-- A loop for a template is written behind the tag of its path and item variable. -/
theorem exists_of_mayReturn_markersEach {body : Context → Value → ℕ → Pass Text} {array itemVar : Value}
    {p : String} (harray : array.text? = some p) (hp : p.toList ≠ [])
    (hitem : itemVar.holds = true → itemVar.text?.isSome = true)
    (h : MayReturn (markersEach body ctx array itemVar) t) :
    ∃ head : LoopHead, head.array = fullPath p.toList ctx.loop ∧
      head.itemVar = (if itemVar.holds then some itemVar.display else none) ∧
      ∃ inside, t = head.tag ++ (inside ++ eachClosing) := by
  obtain ⟨data, -, h⟩ := exists_of_mayReturn_bind h
  obtain ⟨found, -, h⟩ := exists_of_mayReturn_bind h
  obtain ⟨path, hpath, h⟩ := exists_of_mayReturn_bind h
  obtain ⟨inside, -, h⟩ := exists_of_mayReturn_bind h
  obtain rfl := eq_of_mayReturn_pure h
  have hshown : path.display = fullPath p.toList ctx.loop :=
    display_absolutePath harray (mayReturn_liftM.mp hpath)
  have hname : (if itemVar.holds then some itemVar.display else none) ≠ some [] := by
    split_ifs with hholds
    · obtain ⟨name, hname⟩ := Option.isSome_iff_exists.mp (hitem hholds)
      rw [Value.display_of_text? hname]
      exact fun hempty => (Value.holds_iff_of_text? hname).mp hholds (Option.some.inj hempty)
    · nofun
  let head : LoopHead := ⟨fullPath p.toList ctx.loop, if itemVar.holds then some itemVar.display else none,
    fullPath_ne_nil hp _, hname⟩
  have htag : "<hb-each array=\"".toList ++ Markup.escapeAttribute path ++ ['"'] ++
      itemVarAttribute itemVar ++ ['>'] = head.tag := eachTag_literal hshown.symm rfl
  refine ⟨head, rfl, rfl, inside, ?_⟩
  rw [htag, List.append_assoc]
  rfl

end Rendered

/-! ### Attributes -/

/-- A tag that is read as the opening of a conditional with some text as its condition, whatever stands
behind it. -/
def TellsConditional (tag condition : Text) : Prop :=
  ∀ behind, conditional? (tag ++ behind) =
    (bodyUntil? ifOpening ifClosing behind).map fun (body, rest) => (⟨some condition, body⟩, rest)

/-- A tag that is read as the opening of a loop with some texts as its array and item variable, whatever
stands behind it. -/
def TellsLoop (tag array : Text) (itemVar : Option Text) : Prop :=
  ∀ behind, loop? (tag ++ behind) =
    (bodyUntil? eachOpening eachClosing behind).map fun (body, rest) => (⟨array, itemVar, body⟩, rest)

/-- **Attributes are read back.** Escaped text is decoded without failure to the text, a condition is the
one that was written but for braces around it, and the tags that are written for conditionals and loops are
read with the escaped texts. -/
theorem attributes_read_back :
    (∀ c, checkReferences (Markup.escape c) = .ok () ∧ decodeReferences (Markup.escape c) = c) ∧
      (∀ c, (∀ inner, c = braced inner → readCondition (some (Markup.escape c)) = .ok (trim inner)) ∧
        ((∀ inner, c ≠ braced inner) → readCondition (some (Markup.escape c)) = .ok c)) ∧
      (∀ isBuilding onward props children ctx c t, (Mapping.getD "condition" props).text? = some c →
        MayReturn (renderNode ⟨.markers, isBuilding⟩ onward (.element (.helper .ifThen) props children)
          ctx) t →
        ∃ tag inside, t = tag ++ (inside ++ ifClosing) ∧ TellsConditional tag (Markup.escape c.toList)) ∧
      ∀ isBuilding onward props children ctx p t, (Mapping.getD "array" props).text? = some p →
        p.toList ≠ [] →
        ((Mapping.getD "item_var" props).holds = true → (Mapping.getD "item_var" props).text?.isSome) →
        MayReturn (renderNode ⟨.markers, isBuilding⟩ onward (.element (.helper .each) props children)
          ctx) t →
        ∃ tag inside, t = tag ++ (inside ++ eachClosing) ∧
          TellsLoop tag (Markup.escape (fullPath p.toList ctx.loop))
            (if (Mapping.getD "item_var" props).holds then
              some (Markup.escape (Mapping.getD "item_var" props).display) else none) := by
  have hread : ∀ c, readCondition (some (Markup.escape c)) = .ok (unwrapped c) := fun c => by
    rw [readCondition, Option.getD_some, Markup.checkReferences_escape, decodeCondition_escape]
    rfl
  refine ⟨fun c => ⟨Markup.checkReferences_escape c, Markup.decodeReferences_escape c⟩,
    fun c => ⟨?_, fun hne => by rw [hread, unwrapped_of_forall_ne hne]⟩, ?_, ?_⟩
  · rintro inner rfl
    rw [hread, unwrapped_braced]
  · intro isBuilding onward props children ctx c t hc h
    rw [renderNode] at h
    obtain ⟨ps, -, h⟩ := exists_of_mayReturn_bind h
    rw [renderIf] at h
    simp only [hc] at h
    obtain ⟨inside, rfl⟩ := exists_of_mayReturn_renderIfTag h
    exact ⟨ifTag c.toList, inside, rfl, conditional?_ifTag_append c.toList⟩
  · intro isBuilding onward props children ctx p t hp hne hitem h
    have hgiven : givenText (Mapping.getD "array" props) = Mapping.getD "array" props :=
      if_pos ((Value.holds_iff_of_text? hp).mpr hne)
    rw [renderNode] at h
    dsimp only at h
    rw [hgiven] at h
    obtain ⟨head, harray, hname, inside, rfl⟩ := exists_of_mayReturn_markersEach hp hne hitem h
    refine ⟨head.tag, inside, rfl, fun behind => ?_⟩
    rw [loop?_tag_append]
    simp only [LoopHead.found, harray, hname]
    split_ifs <;> rfl

/-- The properties of a conditional and a loop with references, quotes and tags in them. -/
def quoted : Mapping :=
  [(.str "condition", .str "\"&lt;\""), (.str "array", .str "a&b"), (.str "item_var", .str "<x>")]

theorem attributes_read_back_quoted :
    readCondition (some (Markup.escape "\x7b\x7b a \x7d\x7d".toList)) = .ok "a".toList ∧
      readCondition (some (Markup.escape "&lt;".toList)) = .ok "&lt;".toList ∧
      (∃ tag inside, "<hb-if condition=\"&quot;&amp;lt;&quot;\"></hb-if>".toList =
          tag ++ (inside ++ ifClosing) ∧ TellsConditional tag "&quot;&amp;lt;&quot;".toList) ∧
      ∃ tag inside, "<hb-each array=\"a&amp;b\" itemVar=\"&lt;x&gt;\"></hb-each>".toList =
          tag ++ (inside ++ eachClosing) ∧ TellsLoop tag "a&amp;b".toList (some "&lt;x&gt;".toList) := by
  obtain ⟨-, hcondition, hconditional, hloop⟩ := attributes_read_back
  refine ⟨(hcondition _).1 " a ".toList (by decide), (hcondition _).2 (fun inner => ?_), ?_, ?_⟩
  · exact fun h => by cases h
  · refine hconditional false (fun _ _ => pure []) quoted [] {} "\"&lt;\"" _ rfl ⟨{}, {}, ?_⟩
    rw [renderNode, parts]
    rfl
  · refine hloop false (fun _ _ => pure []) quoted [] {} "a&b" _ rfl (by decide) (fun _ => rfl) ⟨{}, {}, ?_⟩
    rw [renderNode, parts]
    rfl

end Stencil.Render
