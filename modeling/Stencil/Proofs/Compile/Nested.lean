import Stencil.Proofs.Compile.NestedLoops
import Stencil.Proofs.Compile.Samples
import Stencil.Proofs.Template.Substitution

/-!
# Compiling nested loops

The main statement is `template_nested`: **loops nested to any depth compile to blocks each of which is
over an array in the item of the block around it.** Four parts have to spell the same paths for it.
Marking the sample binds the token of the field to the path through the first items of all lists;
rendering writes the array of every loop as the same path, as far as it goes; the only token in the
markup is replaced by the path; and lowering names the items.
-/

namespace Stencil.Compile

open Text Markup Template Component Render Marker

/-! ### The stages -/

/-- The path of the field is spelled from the root. -/
theorem isSpelled_fieldPath {loop : Option Enclosing} {outer : Option Level} (h : Around loop outer)
    (field : LevelName) (levels : List Level) : IsSpelled (fieldPath field.name (base loop) levels) := by
  induction levels generalizing loop outer with
  | nil => exact .joined h field
  | cons l ls ih =>
    have hnext := ih (h.next l)
    rw [fieldPath, ← absolute_array h]
    exact hnext

/-- The characters of a token are those of a word. -/
theorem isJoined_token (path : String) : IsJoined (Shape.token {} path).toList := by
  intro c h
  have hword : isAsciiWord c = true := by
    have hlead : ∀ c ∈ "__PROP_".toList, isAsciiWord c = true := by decide
    have htail : ∀ c ∈ "__".toList, isAsciiWord c = true := by decide
    rw [Shape.token, String.toList_append, String.toList_append, List.mem_append,
      List.mem_append] at h
    rcases h with (h | h) | h
    · exact hlead c h
    · rw [String.toList_ofList] at h
      obtain ⟨d, -, rfl⟩ := List.mem_map.mp h
      split
      · next hsafe =>
        rw [isAsciiWord, Bool.or_eq_true]
        exact .inl hsafe
      · decide
    · exact htail c h
  exact .inl (by rw [isIdentifierChar, hword, Bool.true_or])

theorem lead_eq : (Shape.lead {}).toList = markerLead := by decide

/-- What is bound is a table of tokens. -/
theorem isTable_paths {markers : Registry} (hsound : markers.IsSound {}) :
    IsTable (Shape.lead {}).toList markers.paths := by
  refine ⟨hsound.nodup, fun entry hentry => ?_⟩
  have hjoined := isJoined_token entry.2
  rw [hsound.eq_token _ hentry]
  refine ⟨?_, hjoined.not_mem (by decide) (by decide), hjoined.not_mem (by decide) (by decide)⟩
  rw [Shape.token, String.toList_append, String.toList_append, List.append_assoc]
  exact List.prefix_append _ _

/-- The stages that markup goes through unless it is said otherwise. -/
theorem stages_default (depth : ℕ) : Options.stages { depth } =
    [.comments, .attributes ["data-id"], .markers {} false, .pseudoTags, .validation] := rfl

/-- Bland text is neither stripped of comments nor of attributes. -/
theorem runStages_of_bland {t : Text} (h : Bland t) (artifact : Artifact) (stages : List Stage) :
    runStages artifact (.comments :: .attributes ["data-id"] :: stages) t =
      runStages artifact stages t := by
  simp only [runStages, Stage.run, stripComments_of_bland h, stripAttributes_of_bland h, pure_bind]

/-- **The stages.** Where the token of the field is bound to its path, the markup of the loops around the
token goes through the stages to the template. -/
theorem runStages_draft {markers : Registry} (hsound : markers.IsSound {}) {field : LevelName}
    {first : Level} {rest : List Level} {path : String}
    (hpath : path.toList = fieldPath field.name [] (first :: rest))
    (hmem : (Shape.token {} path, path) ∈ markers.paths) (source : Option String) (depth : ℕ)
    (journal : Journal) :
    ∃ journal', runStages ⟨markers, source⟩ (Options.stages { depth })
      (draft (Tree.shown (.str (Shape.token {} path))).outline none none
        (first :: rest)).outline.written journal =
      (.ok (nestedTemplate field first rest), journal') := by
  obtain ⟨u, v, ⟨hu, hv⟩, ⟨hblandu, hblandv⟩, hwritten⟩ := exists_around .root first rest
  have hspelled : IsSpelled path.toList := by
    rw [hpath]
    exact isSpelled_fieldPath .root field (first :: rest)
  have htoken := isJoined_token path
  have hshown : (Tree.shown (.str (Shape.token {} path))).outline.written =
      (Shape.token {} path).toList := by
    have hdisplay : (Value.str (Shape.token {} path)).display = (Shape.token {} path).toList := by
      simp [Value.display]
    rw [Tree.shown, Draft.run, Outline.written, Outline.written, hdisplay, htoken.escape_eq,
      List.append_nil]
  have hbland : Bland (u ++ '>' :: ((Shape.token {} path).toList ++ '<' :: v)) := by
    have hall := (hblandu.append htoken.bland).append hblandv
    simpa using hall
  have plain : '<' ∉ path.toList := hspelled.isJoined.not_mem (by decide) (by decide)
  have hreference : u ++ '>' :: (reference path ++ '<' :: v) =
      (draft (.reference path.toList plain .done) none none (first :: rest)).outline.written := by
    rw [hwritten, Outline.written, Outline.written, List.append_nil]
    rfl
  have hends : ∀ entry ∈ markers.paths, '>' ∉ entry.1.toList ∧ '<' ∉ entry.1.toList := by
    intro entry hentry
    have hjoined := isJoined_token entry.2
    rw [hsound.eq_token _ hentry]
    exact ⟨hjoined.not_mem (by decide) (by decide), hjoined.not_mem (by decide) (by decide)⟩
  -- the token is between two angle brackets, so that substitution finds it alone
  have hsubstitute := substitute_token (isTable_paths hsound) hmem hends
    (lead_eq ▸ hspelled.unmarked) (lead_eq ▸ hu) (lead_eq ▸ hv) false journal
  obtain ⟨journal', hlower⟩ := Outline.lowerTags_written (steady_draft plain (first :: rest))
    (journal ++ [.substituted (Shape.token {} path)])
  rw [← hreference, template_draft plain hpath] at hlower
  have hvalid : refuseUnbalanced source (nestedTemplate field first rest) journal' =
      (.ok (nestedTemplate field first rest), journal') := by
    have hangle : '<' ∉ nestedTemplate field first rest :=
      not_mem_nestedTemplate (by decide) (by decide) field first rest
    rw [refuseUnbalanced, unbalanced_of_untagged (tight_of_not_mem hangle).untagged]
    rfl
  refine ⟨journal', ?_⟩
  rw [stages_default, hwritten, hshown, runStages_of_bland hbland]
  exact (Work.bind_of_ok hsubstitute).trans ((Work.bind_of_ok hlower).trans (Work.bind_of_ok hvalid))

/-! ### The component -/

/-- A mapping of names. -/
def named (entries : List (String × Value)) : Mapping := entries.map fun (name, v) => (.str name, v)

/-- The entries of a marked copy have the names that they had. -/
theorem exists_named {shape : Shape} {base : String} {sample : List (String × Value)}
    {props : Mapping} {r r' : Registry} (h : MarksEntries shape base (named sample) r props r') :
    ∃ marked, props = named marked := by
  induction sample generalizing props r with
  | nil =>
    cases h
    exact ⟨[], rfl⟩
  | cons entry rest ih =>
    cases h with
    | cons value each =>
      obtain ⟨marked, rfl⟩ := ih each
      exact ⟨(entry.1, _) :: marked, rfl⟩

/-- A component can be called with names. -/
theorem arguments?_named (entries : List (String × Value)) :
    Component.arguments? (named entries) = some entries := by
  induction entries with
  | nil => rfl
  | cons entry rest ih =>
    have hcons : named (entry :: rest) = (.str entry.1, entry.2) :: named rest := rfl
    rw [Component.arguments?] at ih ⊢
    rw [hcons, List.mapM_cons, ih]
    rfl

/-- **The component.** Called with properties whose names lead to a token, the component is rendered as
pseudo-tags around the token. -/
theorem gives_nested (isBuilding : Bool) {field token : String} {markers : Option Registry}
    {levels : List Level} {props : List (String × Value)} {depth : ℕ} (hne : levels ≠ [])
    (hleads : Leads field (· = .str token) (levels.map fun l => l.key.name) (.map (named props)))
    (hdepth : levels.length < depth) :
    Gives (renderComponent ⟨.markers, isBuilding⟩ depth { markers } (nested field levels) (named props))
      (draft (Tree.shown (.str token)).outline none none levels) := by
  obtain ⟨depth, rfl⟩ : ∃ d, depth = d + 1 := ⟨depth - 1, by omega⟩
  have hstands : Stands markers { data := .map (named props), markers } none none (named props) :=
    .root (named props)
  have hscope : levels = [] →
      List.lookup "item" (("props", .map (named props)) :: props ++ []) =
        some (.map (named props)) := (absurd · hne)
  obtain ⟨v, heval, hgives⟩ := gives_returned isBuilding hstands hleads hscope
    (show levels.length ≤ depth by omega)
  have hcall : ∀ session, Component.call isBuilding (nested field levels) (named props) session =
      .ok (Element.provider (.map (named props)) [v], session) := by
    intro session
    rw [Component.call, arguments?_named]
    change (do
      let children ← (do
        let w ← Body.eval isBuilding (("props", .map (named props)) :: props ++ []) (returned field none levels)
        pure [w])
      pure (Element.provider (.map (named props)) children) : Pass Value) session = _
    simp only [bind_assoc, pure_bind]
    exact Yields.bind (f := fun w => pure (Element.provider (.map (named props)) [w])) (.of_ok heval)
      (.pure _) session
  unfold renderComponent
  refine Yields.bind (.of_ok hcall) ?_
  change Gives (renderNode _ (renderWithin _ depth) (Element.provider (.map (named props)) [v]) _) _
  simp only [Element.provider, renderNode, renderAll]
  have hall := hgives.append (show Gives (pure []) .done from .pure [])
  rwa [Draft.append_done] at hall

/-- **The sample.** In the marked properties the keys of the levels lead to a token, which is bound to the
path of the field. -/
theorem exists_token {field : LevelName} {levels : List Level} {sample : List (String × Value)}
    {props : Mapping} {markers : Registry}
    (hleads : Leads field.name (isLeaf · = true) (levels.map fun l => l.key.name)
      (.map (named sample)))
    (hmarked : markedProps {} (named sample) = (.ok props, markers)) :
    ∃ marked path, props = named marked ∧ path.toList = fieldPath field.name [] levels ∧
      Leads field.name (· = .str (Shape.token {} path)) (levels.map fun l => l.key.name)
        (.map (named marked)) ∧
      (Shape.token {} path, path) ∈ markers.paths ∧ markers.IsSound {} := by
  have heach : MarksEntries {} "" (named sample) {} props markers :=
    marks_of_markEntries "" (named sample) hmarked
  have hpath : (leafPath field.name "" (levels.map fun l => l.key.name)).toList =
      fieldPath field.name [] levels := by
    have hempty : "" = String.ofList [] := by decide
    rw [hempty, leafPath_eq, String.toList_ofList]
  obtain ⟨htoken, hmem⟩ := leads_mark hleads (.map heach)
  obtain ⟨marked, rfl⟩ := exists_named heach
  exact ⟨marked, _, rfl, hpath, htoken, hmem, heach.grows.2 (Registry.isSound_empty {})⟩

/-- **Nested loops.** Whatever the sample data is that the keys of the levels lead in to a field, the
component of nested loops compiles to nested blocks, each of which is over an array in the item of the
block around it. No item that stands for all items is left. -/
theorem template_nested (isBuilding : Bool) (field : LevelName) (first : Level) (rest : List Level)
    (sample : List (String × Value)) {props : Mapping} {markers : Registry}
    (hleads : Leads field.name (isLeaf · = true) ((first :: rest).map fun l => l.key.name)
      (.map (named sample)))
    (hmarked : markedProps {} (named sample) = (.ok props, markers)) {depth : ℕ}
    (hdepth : (first :: rest).length < depth) (source : Option String) (session : Session) :
    ∃ compiled, Compile.template { depth } isBuilding (nested field.name (first :: rest))
        (.map (named sample)) source session = .ok (compiled, session) ∧
      compiled.text = nestedTemplate field first rest ∧ ¬ ".[0]".toList <:+: compiled.text := by
  obtain ⟨marked, path, rfl, hpath, htoken, hmem, hsound⟩ := exists_token hleads hmarked
  have hgives := @gives_nested isBuilding _ _ (some markers) _ _ _ (List.cons_ne_nil first rest)
    htoken hdepth
  obtain ⟨journal, hstages⟩ := runStages_draft hsound hpath hmem source depth []
  set markup := (draft (Tree.shown (.str (Shape.token {} path))).outline none none
    (first :: rest)).outline.written
  have hrender : renderMarkers { depth } isBuilding (nested field.name (first :: rest)) (named sample)
      session = .ok (⟨markup, markers⟩, session) := by
    rw [renderMarkers, hmarked]
    refine (Yields.bind hgives (.pure (⟨markup, markers⟩ : Marked)) session).trans ?_
    rw [List.append_nil, readAll_draft]
    rfl
  have hfinish : finish { depth } source ⟨markup, markers⟩ =
      .ok ⟨nestedTemplate field first rest, markers, summarize markers journal, source⟩ := by
    have hrun : (Options.compileMarkup { depth } ⟨markers, source⟩ markup).run.run [] =
        (.ok (nestedTemplate field first rest), journal) := hstages
    simp only [finish, hrun]
  have hbracket : '[' ∉ nestedTemplate field first rest :=
    not_mem_nestedTemplate (by decide) (by decide) field first rest
  refine ⟨⟨nestedTemplate field first rest, markers, summarize markers journal, source⟩, ?_, rfl,
    itemless_of_bracket_not_mem hbracket⟩
  rw [Compile.template]
  simp only [bind, StateT.bind, Except.bind, sampleFor_map, hrender, hfinish]
  rfl

/-- The loop over groups. -/
def groups : Level where
  key := ⟨"groups", by decide, by decide, by decide⟩
  itemVar := some ⟨"group", by decide, by decide, by decide⟩
  byName := true

/-- The loop over the members of a group. -/
def members : Level where
  key := ⟨"members", by decide, by decide, by decide⟩
  itemVar := none
  byName := false

/-- A group with a member. -/
def groupSample : List (String × Value) :=
  [("groups", .list [.map [(.str "members", .list [.map [(.str "name", .str "Ada")]])]])]

/-- The names of members in groups. -/
theorem template_groups : ∃ compiled,
    Compile.template {} false (nested "name" [groups, members]) (.map (named groupSample)) none {} =
      .ok (compiled, {}) ∧
    compiled.text = ("\x7b\x7b#each groups as |group|\x7d\x7d\x7b\x7b#each group.members\x7d\x7d" ++
      "\x7b\x7bthis.name\x7d\x7d\x7b\x7b/each\x7d\x7d\x7b\x7b/each\x7d\x7d").toList := by
  have hleads : Leads "name" (isLeaf · = true) ["groups", "members"] (.map (named groupSample)) :=
    .list rfl rfl (.list rfl rfl (.leaf rfl rfl))
  have hmarked : markedProps {} (named groupSample) = (.ok
      (named [("groups", .list [.map [(.str "members", .list [.map [(.str "name",
        .str "__PROP_groups__0__members__0__name__")]])]])]),
      ⟨[("__PROP_groups__0__members__0__name__", "groups.[0].members.[0].name")],
        [("groups.[0].members.[0].name", "__PROP_groups__0__members__0__name__")]⟩) := by
    rfl
  obtain ⟨compiled, hcompiled, htext, -⟩ := template_nested false
    ⟨"name", by decide, by decide, by decide⟩ groups [members] groupSample hleads hmarked
    (show 2 < depthLimit by decide) none {}
  exact ⟨compiled, hcompiled, htext.trans (by decide)⟩

end Stencil.Compile
