import Stencil.Command.Run
import Stencil.Proofs.Template.Unbound

/-!
# Requests with tokens that have no path

A file of markers may say that a token has no path. A request for the template of some markup leaves
such a token out of its registry (`exists_bindAll`), although substitution knows what to do with it. The
request is compared with one that hands the whole table to substitution (`compileWith`). The stages
behind substitution give a result that does not depend on the journal (`Work.Blind`), so only the texts
that substitution leaves count. The main statement is `run_markup_unbound`: **where the tokens without a
path stand apart, the two substitutions agree exactly if nothing comes in the way of these tokens, and
then the two requests have the same reply.**
-/

namespace Stencil

/-! ### Results that do not depend on the journal -/

namespace Template

/-- Work whose result does not depend on what is written down already. -/
def Work.Blind {α : Type} (work : Work α) : Prop :=
  ∀ journal journal', (work journal).1 = (work journal').1

namespace Work.Blind

variable {α β : Type}

theorem pure (a : α) : Blind (pure a) := fun _ _ => rfl

theorem ofResult (result : Except Failure α) : Blind (ofResult result) := fun _ _ => rfl

theorem record (events : List Event) : Blind (record events) := fun _ _ => rfl

theorem bind {work : Work α} {next : α → Work β} (hwork : Blind work)
    (hnext : ∀ a, Blind (next a)) : Blind (work >>= next) := by
  intro journal journal'
  have hsame := hwork journal journal'
  simp only [Bind.bind, ExceptT.bind, ExceptT.mk, StateT.bind]
  rcases hleft : work journal with ⟨result, after⟩
  rcases hright : work journal' with ⟨result', after'⟩
  obtain rfl : result = result' := by simpa [hleft, hright] using hsame
  cases result with
  | ok a => exact hnext a after after'
  | error failure => rfl

theorem forM {f : α → Work Unit} (h : ∀ a, Blind (f a)) (items : List α) :
    Blind (items.forM f) := by
  induction items with
  | nil => exact pure ()
  | cons a rest ih => exact bind (h a) fun _ => ih

end Work.Blind

theorem blind_lowerTags (t : Text) : (lowerTags t).Blind := by
  have hconditional : ∀ c, (noteConditional c).Blind := fun c =>
    .bind (.ofResult _) fun _ => .record _
  have hloop : ∀ l, (noteLoop l).Blind := fun l =>
    .bind (.ofResult _) fun _ => .bind (.ofResult _) fun _ => .record _
  exact .bind (.forM hconditional _) fun _ => .bind (.forM hloop _) fun _ => .pure _

theorem blind_refuseUnbalanced (source : Option String) (t : Text) :
    (refuseUnbalanced source t).Blind := by
  unfold refuseUnbalanced
  split
  · exact .pure _
  · exact fun _ _ => rfl

/-! ### The whole table -/

/-- A text as it comes to the substitution of markers. -/
def Options.cleaned (options : Options) (t : Text) : Text :=
  let t := if options.stripComments then Template.stripComments t else t
  if options.stripAttributes.isEmpty then t else Template.stripAttributes options.stripAttributes t

/-- Sends a text through a stage, where substitution gets a table of tokens with or without a path. -/
def Stage.runWith (tokens : List Row) (source : Option String) (t : Text) : Stage → Work Text
  | .markers shape strict => substitute shape strict tokens t
  | stage => stage.run ⟨{}, source⟩ t

/-- Sends a text through stages with a table. -/
def runStagesWith (tokens : List Row) (source : Option String) : List Stage → Text → Work Text
  | [], t => pure t
  | stage :: rest, t => do runStagesWith tokens source rest (← stage.runWith tokens source t)

/-- Compiles rendered markup with a table. -/
def Options.compileWith (options : Options) (tokens : List Row) (source : Option String)
    (t : Text) : Work Text :=
  match options.fault with
  | some failure => throw failure
  | none => runStagesWith tokens source options.stages t

/-- What comes before substitution is the same for all registries. -/
theorem runStages_stages (options : Options) (artifact : Artifact) (t : Text) :
    runStages artifact options.stages t =
      runStages artifact [.markers options.shape options.strict, .pseudoTags, .validation]
        (options.cleaned t) := by
  rw [Options.stages, Options.cleaned]
  cases options.stripComments <;> cases options.stripAttributes.isEmpty <;> rfl

theorem runStagesWith_stages (options : Options) (tokens : List Row) (source : Option String)
    (t : Text) :
    runStagesWith tokens source options.stages t =
      runStagesWith tokens source [.markers options.shape options.strict, .pseudoTags, .validation]
        (options.cleaned t) := by
  rw [Options.stages, Options.cleaned]
  cases options.stripComments <;> cases options.stripAttributes.isEmpty <;> rfl

/-- A registry as substitution takes it. -/
def tableOf (markers : Marker.Registry) : List Row :=
  markers.paths.map fun (token, path) => (token, some path)

/-- A registry and a table give the same template if they leave the same text behind substitution. -/
theorem compileMarkup_eq_compileWith {options : Options} (hstrict : options.strict = false)
    {markers : Marker.Registry} {tokens : List Row} {t : Text}
    (h : substituted options.shape (tableOf markers) (options.cleaned t) =
      substituted options.shape tokens (options.cleaned t)) (source : Option String) :
    (options.compileMarkup ⟨markers, source⟩ t []).1 =
      (options.compileWith tokens source t []).1 := by
  rw [Options.compileMarkup, Options.compileWith]
  cases options.fault with
  | some failure => rfl
  | none =>
    obtain ⟨journal, hregistry⟩ :=
      exists_substitute options.shape (tableOf markers) (options.cleaned t) []
    obtain ⟨journal', htable⟩ := exists_substitute options.shape tokens (options.cleaned t) []
    rw [h] at hregistry
    simp only [runStages_stages, runStagesWith_stages, hstrict]
    have hblind : ∀ t, Work.Blind (runStages ⟨markers, source⟩ [.pseudoTags, .validation] t) :=
      fun t => .bind (blind_lowerTags t) fun t => .bind (blind_refuseUnbalanced source t) fun _ =>
        .pure _
    have hleft : runStages ⟨markers, source⟩ [.markers options.shape false, .pseudoTags, .validation]
        (options.cleaned t) [] = _ := Work.bind_of_ok hregistry
    have hright : runStagesWith tokens source
        [.markers options.shape false, .pseudoTags, .validation] (options.cleaned t) [] =
          runStages ⟨markers, source⟩ [.pseudoTags, .validation] _ journal' := Work.bind_of_ok htable
    rw [hleft, hright]
    exact hblind _ journal journal'

end Template

namespace Command

open Template Marker

/-! ### The registry of a file -/

/-- The table in a mapping of tokens to paths: a token that stands for nothing has no path. -/
def rowsOf (entries : Mapping) : List Row :=
  entries.map fun (token, path) =>
    (token.displayString, if path.isNull then none else some path.displayString)

/-- The table in a file of markers. -/
def readTable (w : Workspace) (file : String) : Option (List Row) :=
  match w.tree.readJson w.folder (.ofString file) none with
  | .ok (.map entries) => some (rowsOf entries)
  | _ => none

/-- The bindings in a mapping are the rows with a path. -/
theorem bindingsOf_eq (entries : Mapping) :
    bindingsOf entries = (rowsOf entries).filterMap fun row => row.2.map (row.1, ·) := by
  induction entries with
  | nil => rfl
  | cons entry rest ih =>
    obtain ⟨token, path⟩ := entry
    rw [bindingsOf, rowsOf] at ih
    by_cases hnull : path.isNull = true
    · simp [bindingsOf, rowsOf, hnull, ih]
    · simp [bindingsOf, rowsOf, hnull, ih]

/-- The tokens with a path are among all tokens. -/
private theorem sublist_bound (tokens : List Row) :
    ((tokens.filterMap fun row => row.2.map (row.1, ·)).map Prod.fst).Sublist
      (tokens.map Prod.fst) := by
  induction tokens with
  | nil => exact .slnil
  | cons row rest ih =>
    obtain ⟨token, _ | path⟩ := row
    · exact ih.cons token
    · exact ih.cons_cons token

/-- With its path again, every token with a path is a row of the table. -/
private theorem map_bound (tokens : List Row) :
    ((tokens.filterMap fun row => row.2.map (row.1, ·)).map fun (token, path) => (token, some path)) =
      boundOf tokens := by
  induction tokens with
  | nil => rfl
  | cons row rest ih =>
    obtain ⟨token, _ | path⟩ := row
    · exact ih
    · exact congrArg (List.cons (token, some path)) ih

private theorem lookup_eq_none {name : String} {entries : List (String × String)}
    (h : name ∉ entries.map Prod.fst) : entries.lookup name = none := by
  refine List.lookup_eq_none_iff.mpr fun entry hentry => ?_
  have hne : name ≠ entry.1 := fun he => h (he ▸ List.mem_map_of_mem hentry)
  simpa using hne

private theorem putName_eq_append {name value : String} {entries : List (String × String)}
    (h : name ∉ entries.map Prod.fst) : putName name value entries = entries ++ [(name, value)] := by
  induction entries with
  | nil => rfl
  | cons entry rest ih =>
    obtain ⟨hfirst, hrest⟩ := not_or.mp (List.mem_cons.not.mp h)
    rw [putName, if_neg (Ne.symm hfirst), ih hrest, List.cons_append]

/-- **Every binding counts.** Bindings of different tokens are never refused, and are kept in order. -/
theorem exists_bindAll {bindings : List (String × String)} (h : (bindings.map Prod.fst).Nodup) :
    ∃ markers, bindAll bindings = .ok markers ∧ markers.paths = bindings := by
  -- binding goes on from any registry that has none of the tokens
  suffices hfrom : ∀ (start : Registry), ((start.paths ++ bindings).map Prod.fst).Nodup →
      ∃ markers, bindings.foldlM (fun markers (token, path) => markers.bind token path) start =
        (.ok markers : Except Failure Registry) ∧ markers.paths = start.paths ++ bindings by
    exact hfrom {} (by simpa using h)
  clear h
  induction bindings with
  | nil => exact fun start _ => ⟨start, rfl, (List.append_nil _).symm⟩
  | cons binding rest ih =>
    intro start hnodup
    obtain ⟨token, path⟩ := binding
    have hnew : token ∉ start.paths.map Prod.fst := by
      rw [List.map_append, List.nodup_append] at hnodup
      exact fun hmem => hnodup.2.2 token hmem token (by simp) rfl
    have hbind : start.bind token path = .ok (start.put token path) := by
      rw [Registry.bind, Registry.pathFor?, lookup_eq_none hnew]
    have hpaths : (start.put token path).paths = start.paths ++ [(token, path)] :=
      putName_eq_append hnew
    obtain ⟨markers, hrest, hall⟩ := ih (start.put token path) (by rwa [hpaths, List.append_assoc])
    refine ⟨markers, ?_, by rw [hall, hpaths, List.append_assoc]; rfl⟩
    rw [List.foldlM_cons]
    simp only [hbind]
    exact hrest

/-- The registry of a file has the tokens with a path. -/
theorem exists_readMarkers {w : Workspace} {file : String} {tokens : List Row}
    (hfile : readTable w file = some tokens) (hnodup : (tokens.map Prod.fst).Nodup) :
    ∃ markers, readMarkers w file = .ok markers ∧ tableOf markers = boundOf tokens := by
  unfold readTable at hfile
  split at hfile
  · next entries hread =>
    obtain rfl := Option.some.inj hfile
    have hnodup' : ((bindingsOf entries).map Prod.fst).Nodup :=
      hnodup.sublist (bindingsOf_eq entries ▸ sublist_bound _)
    obtain ⟨markers, hbind, hpaths⟩ := exists_bindAll hnodup'
    refine ⟨markers, ?_, ?_⟩
    · rw [readMarkers, hread]
      exact hbind
    · rw [tableOf, hpaths, bindingsOf_eq, map_bound]
  · cases hfile

/-! ### The request -/

/-- The template for markup and a table. -/
def templateWith (config : Mapping) (tokens : List Row) (source : Option String) (markup : Text) :
    Except Failure Text := do
  let options ← Options.ofConfig config
  (options.compileWith tokens source markup []).1

/-- Writes the template for markup, where substitution gets the whole table. -/
def compileWith (w : Workspace) (manner : Manner) (file : Option String) (tokens : List Row) :
    Job (Nat × Text) := do
  let config ← prepare w manner
  let markup ← Job.ofResult (readMarkup w file)
  let text ← Job.ofResult
    (templateWith config tokens (file.map fun s => (Location.ofString s).text) markup)
  pure (0, text)

theorem templateOf_eq_templateWith {config : Mapping} {options : Options}
    (hoptions : Options.ofConfig config = .ok options) (hstrict : options.strict = false)
    {markers : Registry} {tokens : List Row} {markup : Text}
    (h : substituted options.shape (tableOf markers) (options.cleaned markup) =
      substituted options.shape tokens (options.cleaned markup)) (source : Option String) :
    (templateOf config markers source markup).map Prod.fst =
      templateWith config tokens source markup := by
  have hsame := compileMarkup_eq_compileWith hstrict h source
  rw [templateOf, templateWith, hoptions]
  change _ = (options.compileWith tokens source markup []).1
  rw [← hsame]
  change Except.map Prod.fst (do
    let text ← (options.compileMarkup ⟨markers, source⟩ markup []).1
    pure (text, summarize markers (options.compileMarkup ⟨markers, source⟩ markup []).2)) = _
  rcases options.compileMarkup ⟨markers, source⟩ markup [] with ⟨_ | _, _⟩ <;> rfl

/-- **Tokens without a path.** Where they stand apart in the markup that comes to substitution, the text
that it leaves is that of the whole table exactly if nothing comes in the way of these tokens, and then
the request has the same reply as with the whole table. -/
theorem run_markup_unbound {w : Workspace} {manner : Manner} {file : Option String} {markers : String}
    {tokens : List Row} {config : Mapping} {options : Options} {markup : Text}
    (hmanner : manner.isJson = false) (hconfig : w.config manner = .ok config)
    (hoptions : Options.ofConfig config = .ok options) (hstrict : options.strict = false)
    (hlead : '\x7b' ∉ options.shape.lead.toList) (htail : '\x7b' ∉ options.shape.tail.toList)
    (hmarkup : readMarkup w file = .ok markup)
    (hmarkers : readTable w markers = some tokens)
    (hapart : StandApart options.shape tokens (options.cleaned markup)) :
    (∃ registry, readMarkers w markers = .ok registry ∧ ∀ source,
      (((Stage.markers options.shape options.strict).run ⟨registry, source⟩
          (options.cleaned markup) []).1 =
        (substitute options.shape options.strict tokens (options.cleaned markup) []).1 ↔
      AllTakenOut options.shape tokens (options.cleaned markup))) ∧
    (AllTakenOut options.shape tokens (options.cleaned markup) →
      Request.run w ⟨.markup file (some markers), manner⟩ =
        settle isOwnOrOfFilesOrValues manner "rewrite_error" (compileWith w manner file tokens)
          w.tree) := by
  obtain ⟨registry, hregistry, htable⟩ := exists_readMarkers hmarkers hapart.nodup
  have hiff := substituted_unbound_iff hlead htail hapart
  refine ⟨⟨registry, hregistry, fun source => ?_⟩, fun hall => ?_⟩
  · obtain ⟨journal, hleft⟩ :=
      exists_substitute options.shape (tableOf registry) (options.cleaned markup) []
    obtain ⟨journal', hright⟩ := exists_substitute options.shape tokens (options.cleaned markup) []
    rw [htable] at hleft
    have hstage : (Stage.markers options.shape options.strict).run ⟨registry, source⟩
        (options.cleaned markup) [] =
          (.ok (substituted options.shape (boundOf tokens) (options.cleaned markup)), journal) := by
      rw [hstrict, ← hleft, ← htable]
      rfl
    rw [hstage, hstrict, hright, Except.ok.injEq]
    exact hiff
  · have hsubstituted := hiff.mpr hall
    rw [← htable] at hsubstituted
    have hjob : compileMarkup w manner file (some markers) = compileWith w manner file tokens := by
      have htemplate := templateOf_eq_templateWith hoptions hstrict hsubstituted
        (file.map fun s => (Location.ofString s).text)
      have hpure : ∀ {α : Type} (a : α), Job.ofResult (.ok a) = pure a := fun _ => rfl
      simp only [compileMarkup, compileWith, prepare, hconfig, hmarkup, hregistry, Option.map_some,
        Option.getD_some, hpure, pure_bind, bind_assoc, hmanner, Bool.false_eq_true, if_false]
      refine congrArg _ (funext fun _ => ?_)
      rw [← htemplate]
      cases templateOf config registry _ markup <;> rfl
    exact congrArg (settle isOwnOrOfFilesOrValues manner "rewrite_error" · w.tree) hjob

/-! ### Examples -/

/-- A note without a path beside a name with a path. -/
def noteTokens : List Row := [("__PROP_name__", some "user.name"), ("__PROP_note__", none)]

/-- A workspace with markup in the input and a table in a file. -/
def workspaceOf (table markup : String) : Workspace where
  tree := ⟨[(["markers.json"], .file table.toList)]⟩
  folder := .root
  environment := []
  input := markup.toList

/-- A request about this input and this file. -/
def inputRequest : Request := ⟨.markup none (some "markers.json"), ⟨false, none⟩⟩

/-- A workspace with the note. -/
def noteWorkspace : Workspace :=
  workspaceOf "\x7b\"__PROP_name__\": \"user.name\", \"__PROP_note__\": null\x7d"
    "<p>__PROP_name__</p><i>__PROP_note__</i>"

/-- Without a project file the defaults count. -/
theorem config_workspaceOf (table markup : String) :
    (workspaceOf table markup).config ⟨false, none⟩ = .ok Config.defaults := by
  have hfile : Project.configFile? (workspaceOf table markup).tree
      ((workspaceOf table markup).root ⟨false, none⟩) = none := rfl
  have hchecked : (Config.schema.check Config.defaults).isOk = true := by decide +kernel
  cases hcheck : Config.schema.check Config.defaults with
  | ok =>
    have hload := Config.load_of_configFile?_eq_none hfile
    have henvironment : (workspaceOf table markup).environment = [] := rfl
    rw [Workspace.config, Config.loadChecked, henvironment, hload]
    simp [bind, Except.bind, hcheck, pure, Except.pure]
  | error failure => simp [hcheck, Except.isOk, Except.toBool] at hchecked

/-- The note is removed as the whole table has it. -/
theorem run_markup_unbound_note :
    StandApart {} noteTokens (Options.cleaned {} noteWorkspace.input) ∧
      AllTakenOut {} noteTokens (Options.cleaned {} noteWorkspace.input) ∧
      Request.run noteWorkspace inputRequest =
        settle isOwnOrOfFilesOrValues ⟨false, none⟩ "rewrite_error"
          (compileWith noteWorkspace ⟨false, none⟩ none noteTokens) noteWorkspace.tree := by
  have hapart : StandApart {} noteTokens (Options.cleaned {} noteWorkspace.input) := by
    refine ⟨by decide, by decide, by decide, by decide, by decide +kernel, by decide +kernel⟩
  have hall : AllTakenOut {} noteTokens (Options.cleaned {} noteWorkspace.input) := by
    unfold AllTakenOut
    decide +kernel
  refine ⟨hapart, hall, ?_⟩
  have hconfig : noteWorkspace.config ⟨false, none⟩ = .ok Config.defaults := config_workspaceOf _ _
  have hoptions : Options.ofConfig Config.defaults = .ok {} := rfl
  have hmarkup : readMarkup noteWorkspace none = .ok noteWorkspace.input := rfl
  have hmarkers : readTable noteWorkspace "markers.json" = some noteTokens := by decide +kernel
  have hmain := run_markup_unbound rfl hconfig hoptions rfl (by decide) (by decide) hmarkup hmarkers hapart
  exact hmain.2 hall

/-- The output that a request has, if the program as a whole does not fail. -/
def outputOf (reply : Except Failure Reply) : Option Text := (reply.map Reply.output).toOption

/-- A token without a path that does not look like a token is left in the template, though substitution
takes it out, and one with another token in it is taken for that one. -/
theorem run_markup_unbound_ne :
    (readTable (workspaceOf "\x7b\"FOO\": null\x7d" "FOO") "markers.json" = some [("FOO", none)] ∧
      Request.run (workspaceOf "\x7b\"FOO\": null\x7d" "FOO") inputRequest ≠
        settle isOwnOrOfFilesOrValues ⟨false, none⟩ "rewrite_error"
          (compileWith (workspaceOf "\x7b\"FOO\": null\x7d" "FOO") ⟨false, none⟩ none [("FOO", none)])
          (workspaceOf "\x7b\"FOO\": null\x7d" "FOO").tree) ∧
    outputOf (Request.run (workspaceOf "\x7b\"__PROP_a__\": \"a\", \"__PROP_a__b__\": null\x7d"
      "__PROP_a__b__") inputRequest) = some "\x7b\x7ba\x7d\x7db__".toList := by
  refine ⟨⟨by decide +kernel, fun hsame => ?_⟩, by decide +kernel⟩
  have hrequest : outputOf (Request.run (workspaceOf "\x7b\"FOO\": null\x7d" "FOO") inputRequest) =
      some "FOO".toList := by decide +kernel
  have hwhole : outputOf (settle isOwnOrOfFilesOrValues ⟨false, none⟩ "rewrite_error"
      (compileWith (workspaceOf "\x7b\"FOO\": null\x7d" "FOO") ⟨false, none⟩ none [("FOO", none)])
      (workspaceOf "\x7b\"FOO\": null\x7d" "FOO").tree) = some [] := by decide +kernel
  rw [hsame, hwhole] at hrequest
  cases hrequest

end Command

end Stencil
