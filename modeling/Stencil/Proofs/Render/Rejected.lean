import Stencil.Proofs.Condition
import Stencil.Proofs.Render.Markers

/-!
# Rejected conditions

A condition with a term that is no path cannot be put into a template. A template shows the
alternative of such a conditional, and nothing if there is none. A preview evaluates the condition
all the same: a term in which there is no step asks for the data itself, and any other term for the
value at its path, also if no template could ask for it.

The main statement is `ifThen_rejected`: **under a rejected condition a preview hides what the
template hides exactly if every alternative of the condition has a conjunct that is false**, where a
conjunct without a step is false exactly behind an odd number of signs. So there are conditions that
show in a preview what the template hides, the empty one first of all
(`rewritten_unconditional_ne`).
-/

namespace Stencil.Condition

open Text

/-! ### Evaluation over a mapping -/

/-- Whether a conjunct is false for a mapping. A path without a step leads to the mapping itself,
and a mapping is true. -/
def IsFalse (entries : Mapping) (conjunct : Text) : Prop :=
  if Path.parse (negations (trim conjunct)).2 = [] then (negations (trim conjunct)).1 % 2 = 1
  else (Value.resolve (negations (trim conjunct)).2 (.map entries)).isTruthy =
    ((negations (trim conjunct)).1 % 2 == 1)

instance (entries : Mapping) : DecidablePred (IsFalse entries) := fun conjunct =>
  inferInstanceAs (Decidable (if Path.parse (negations (trim conjunct)).2 = [] then
    (negations (trim conjunct)).1 % 2 = 1 else _ = _))

variable {entries : Mapping} {t : Text}

/-- A conjunct without a step in its path is decided by its signs. -/
private theorem evaluateConjunct_of_stepless (h : Path.parse (negations (trim t)).2 = []) :
    evaluateConjunct (.map entries) t = ((negations (trim t)).1 % 2 != 1) := by
  have hself : Value.resolve (negations (trim t)).2 (.map entries) = .map entries := by
    rw [Value.resolve, h, Value.follow]
  have htruthy : (Value.map entries).isTruthy = true := rfl
  unfold evaluateConjunct
  dsimp only
  rw [hself, htruthy]
  rcases Nat.mod_two_eq_zero_or_one (negations (trim t)).1 with heven | hodd
  · rw [heven]; rfl
  · rw [hodd]; rfl

theorem evaluateConjunct_eq_false_iff :
    evaluateConjunct (.map entries) t = false ↔ IsFalse entries t := by
  unfold IsFalse
  split_ifs with hsteps
  · rw [evaluateConjunct_of_stepless hsteps]
    simp
  · exact bne_eq_false_iff_eq

theorem evaluateText_eq_false_iff :
    evaluateText (.map entries) t = false ↔
      ∀ alternative ∈ alternatives t, ∃ conjunct ∈ conjuncts alternative,
        IsFalse entries conjunct := by
  rw [evaluateText, List.any_eq_false]
  refine forall₂_congr fun alternative _ => ?_
  rw [Bool.not_eq_true, List.all_eq_false]
  refine exists_congr fun conjunct => and_congr_right fun _ => ?_
  rw [Bool.not_eq_true, evaluateConjunct_eq_false_iff]

/-- A text is false for a mapping exactly if its paths can be read and each alternative has a false
conjunct. -/
theorem evaluate_eq_false_iff {condition : String} :
    evaluate (.str condition) (.map entries) = .ok false ↔
      checkPaths condition.toList = .ok () ∧
        ∀ alternative ∈ alternatives condition.toList, ∃ conjunct ∈ conjuncts alternative,
          IsFalse entries conjunct := by
  rw [evaluate_str _ rfl, ← evaluateText_eq_false_iff]
  cases checkPaths condition.toList <;> simp [Except.map]

/-- A condition of nothing but operators is decided by its signs alone, whatever the data is: it is
true exactly if in some alternative no conjunct is behind an odd number of signs. -/
theorem evaluate_of_stepless {condition : String}
    (h : ∀ path ∈ paths condition.toList, Path.fields path = []) (entries : Mapping) :
    evaluate (.str condition) (.map entries) =
      .ok ((alternatives condition.toList).any fun alternative =>
        (conjuncts alternative).all fun conjunct => (negations (trim conjunct)).1 % 2 != 1) := by
  have htext : evaluateText (.map entries) condition.toList =
      (alternatives condition.toList).any fun alternative =>
        (conjuncts alternative).all fun conjunct => (negations (trim conjunct)).1 % 2 != 1 := by
    rw [evaluateText, Bool.eq_iff_iff, List.any_eq_true, List.any_eq_true]
    refine exists_congr fun alternative => and_congr_right fun halternative => ?_
    rw [List.all_eq_true, List.all_eq_true]
    refine forall₂_congr fun conjunct hconjunct => ?_
    have hfields : Path.fields (negations (trim conjunct)).2 = [] :=
      h _ (List.mem_flatMap.mpr ⟨alternative, halternative, List.mem_map_of_mem hconjunct⟩)
    have hsteps : Path.parse (negations (trim conjunct)).2 = [] := by
      rw [Path.parse, hfields, List.map_nil]
    rw [evaluateConjunct_of_stepless hsteps]
  have hpaths : checkPaths condition.toList = .ok () := checkPaths_eq_ok_iff.mpr fun path hpath =>
    ⟨[], by rw [Path.read, Path.parse, h path hpath]; rfl⟩
  rw [evaluate_str _ rfl, hpaths, htext]
  rfl

end Stencil.Condition

namespace Stencil.Render

open Text Template Component

variable {condition : String} {failure : Failure}

/-! ### In a template -/

/-- The template text of the alternative among some children, if there is one. -/
def alternativeTemplate : Regions → Text
  | .plain _ => []
  | .split _ alternative _ => alternative.outline.template

/-- Under a rejected condition a conditional is lowered to its alternative, whatever its body is. -/
theorem lowerConditional_rejected
    (hrejected : Condition.validateText condition.toList = .error failure)
    (hbare : unwrapped condition.toList = condition.toList) (body : Text) :
    lowerConditional (conditionalKind.hit condition.toList body) = hiddenConditional body := by
  have hcondition : decodeCondition (conditionalKind.hit condition.toList body).condition =
      condition.toList := (decodeCondition_escape condition.toList).trans hbare
  rw [lowerConditional, hcondition, hrejected]
  rfl

/-- Under a rejected condition nothing but the alternative is left of the children. -/
theorem template_rejected
    (hrejected : Condition.validateText condition.toList = .error failure)
    (hbare : unwrapped condition.toList = condition.toList) (children : List Component.Tree) :
    (Component.Tree.ifThen condition children).template =
      alternativeTemplate (Tree.regionsAll none children) := by
  rw [Tree.template, Tree.draft, Tree.regions, Regions.whole_plain]
  cases Tree.regionsAll none children with
  | plain d =>
    simp [Regions.underCondition, Outline.template, Template.underCondition, hbare, hrejected,
      alternativeTemplate]
  | split before alternative after =>
    simp [Regions.underCondition, Outline.template, underConditionElse, hbare, hrejected,
      alternativeTemplate]

/-! ### In both modes -/

/-- A preview of a conditional shows the branch that evaluation says. -/
theorem renderNode_ifThen (isBuilding : Bool) (onward : Context → Value → Pass Text)
    (children : List Component.Tree) {ctx : Context} {data : Value} {holds : Bool}
    (hdata : ctx.scopedData = .ok data)
    (hholds : Condition.evaluate (.str condition) data = .ok holds) :
    renderNode ⟨.preview, isBuilding⟩ onward
        (Component.Tree.ifThen condition children).toValue ctx =
      (do renderBranch ctx holds
            (← parts ⟨.preview, isBuilding⟩ onward (Tree.toValues children))) := by
  have hcondition : Mapping.getD "condition" [(.str "condition", .str condition)] =
      .str condition := rfl
  simp only [Tree.toValue, Element.ifThen, renderNode, hcondition]
  refine bind_congr fun ps => ?_
  rw [renderIf, text?_str]
  dsimp only
  rw [hdata]
  change (do renderBranch ctx (← Condition.evaluate (.str condition) data) ps : Pass Text) = _
  rw [hholds]
  rfl

/-- **Rejected conditions.** Whatever its body is, a conditional under a rejected condition is
lowered to its alternative; so of a tree the template has nothing but the alternative. A preview
shows the branch that evaluation says, and this is the alternative exactly if the paths of the
condition can be read and each alternative of the condition has a false conjunct. -/
theorem ifThen_rejected
    (hrejected : Condition.validateText condition.toList = .error failure)
    (hbare : unwrapped condition.toList = condition.toList) (isBuilding : Bool)
    (children : List Component.Tree) (onward : Context → Value → Pass Text) {ctx : Context}
    {entries : Mapping} (hdata : ctx.scopedData = .ok (.map entries)) :
    (∀ body, lowerConditional (conditionalKind.hit condition.toList body) =
      hiddenConditional body) ∧
    ((Component.Tree.ifThen condition children).Steady → ∀ sample,
      rewritten isBuilding sample (Component.Tree.ifThen condition children).toValue =
        (readAll (Component.Tree.ifThen condition children).draft.reads).map fun _ =>
          alternativeTemplate (Tree.regionsAll none children)) ∧
    (∀ holds, Condition.evaluate (.str condition) (.map entries) = .ok holds →
      renderNode ⟨.preview, isBuilding⟩ onward
          (Component.Tree.ifThen condition children).toValue ctx =
        (do renderBranch ctx holds
              (← parts ⟨.preview, isBuilding⟩ onward (Tree.toValues children)))) ∧
    (Condition.evaluate (.str condition) (.map entries) = .ok false ↔
      Condition.checkPaths condition.toList = .ok () ∧
        ∀ alternative ∈ Condition.alternatives condition.toList,
          ∃ conjunct ∈ Condition.conjuncts alternative, Condition.IsFalse entries conjunct) := by
  refine ⟨lowerConditional_rejected hrejected hbare, fun hsteady sample => ?_,
    fun holds hholds => ?_, Condition.evaluate_eq_false_iff⟩
  · rw [rewritten_toValue isBuilding sample hsteady, template_rejected hrejected hbare]
  · exact renderNode_ifThen isBuilding onward children hdata hholds

/-- A conditional without an operand behind the sign, around an alternative. -/
def halved : Component.Tree := .ifThen "a &&" [.text "x", .otherwise [.text "-"]]

theorem ifThen_rejected_halved :
    Condition.validateText "a &&".toList = .error (.unusableTerms "a &&" [""]) ∧
      unwrapped "a &&".toList = "a &&".toList ∧ halved.Steady ∧
      rewritten false .null halved.toValue = .ok ['-'] ∧
      Condition.evaluate (.str "a &&") (.map [(.str "a", .int 0)]) = .ok false := by
  have hrejected : Condition.validateText "a &&".toList = .error (.unusableTerms "a &&" [""]) := rfl
  have hbare : unwrapped "a &&".toList = "a &&".toList := by decide
  have hsteady : halved.Steady := by decide
  have hdata : ({ data := .map [(.str "a", .int 0)] } : Context).scopedData =
      .ok (.map [(.str "a", .int 0)]) := rfl
  obtain ⟨-, htemplate, -, hfalse⟩ := ifThen_rejected hrejected hbare false
    [.text "x", .otherwise [.text "-"]] (fun _ _ => pure []) hdata
  exact ⟨hrejected, hbare, hsteady, htemplate hsteady .null, hfalse.mpr ⟨rfl, by decide⟩⟩

/-- A conditional under an empty condition, around an alternative. -/
def unconditional : Component.Tree := .ifThen "" [.text "x", .otherwise [.text "-"]]

/-- A preview shows what the template hides under an empty condition, which is true for all data. -/
theorem rewritten_unconditional_ne :
    rewritten false .null unconditional.toValue = .ok ['-'] ∧
      render ⟨.preview, false⟩ { data := .map [] } unconditional.toValue {} = .ok (['x'], {}) := by
  have hsteady : unconditional.Steady := by decide
  refine ⟨(rewritten_toValue false .null hsteady).trans rfl, ?_⟩
  have hholds : Condition.evaluate (.str "") (.map []) = .ok true :=
    Condition.evaluate_of_stepless (by decide) []
  have hdata : ({ data := .map [] } : Context).scopedData = .ok (.map []) := rfl
  have htext : ∀ onward, renderNode ⟨.preview, false⟩ onward (.str "x") = fun _ => pure ['x'] :=
    fun _ => by
      funext ctx
      simp only [renderNode]
      rfl
  rw [render, depthLimit, renderWithin, unconditional,
    renderNode_ifThen false _ _ hdata hholds]
  simp only [Tree.toValues, Tree.toValue, Element.otherwise, Render.parts, partsOf, pure_bind,
    htext]
  rfl

end Stencil.Render
