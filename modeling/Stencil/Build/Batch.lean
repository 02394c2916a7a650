import Stencil.Build.Module
import Stencil.Build.Report
import Stencil.Build.Settings
import Stencil.Files.Document

/-!
# Building a folder

A batch makes one artifact of each component module of a folder: a template or a preview. The file of an
artifact has the place of its module, below the target folder and with another suffix. The modules are
the ones that are there at the beginning; each artifact is written before the next module is loaded.

The data of a preview comes from a file beside the module, and otherwise from the samples of the
component.
-/

namespace Stencil.Build

/-- What is made of a component. -/
structure Product where
  /-- The text of the artifact. -/
  text : Text
  /-- What happened on the way to it. -/
  summary : Option Template.Summary

/-- A build of the components of a folder. -/
structure Batch where
  /-- The settings. -/
  settings : Settings
  /-- The folder with the component modules. -/
  source : Location
  /-- The folder for the artifacts. -/
  target : Location
  /-- The suffix of the artifacts. -/
  suffix : Value
  /-- Whether nothing is written. -/
  isDryRun : Bool
  /-- Whether components are told that templates are being built. -/
  isBuilding : Bool
  /-- What is made of a component in a file. -/
  make : Tree → Location → Value → Pass Product

namespace Batch

/-- The place of the artifact of a module. -/
def outputOf (batch : Batch) (file : Location) : Except Failure Location :=
  (replaceSuffix (batch.source.relativeTo file) batch.suffix).map batch.target.locate

/-- Makes something of the component of a module, if it has one. -/
def produce (batch : Batch) (tree : Tree) (file : Location) : Pass (Option Product) := do
  let attributes ← loadModule batch.isBuilding tree file
  match component? attributes batch.settings.componentNames file.stem with
  | some component => some <$> batch.make tree file component
  | none => pure none

/-- What becomes of a module, if nothing goes wrong, and the files afterwards. -/
def attempt (batch : Batch) (tree : Tree) (file : Location) : Except Failure (Outcome × Tree) := do
  let (made, _) ← (batch.produce tree file).run {}
  match made with
  | none => pure (.skipped, tree)
  | some product =>
    let output ← batch.outputOf file
    let after ← if batch.isDryRun then pure tree else tree.write output product.text
    pure (.built output product.summary, after)

/-- The artifact of a module, and the files afterwards. -/
def artifact (batch : Batch) (tree : Tree) (file : Location) : Artifact × Tree :=
  match batch.attempt tree file with
  | .ok (outcome, after) => (⟨file, outcome⟩, after)
  | .error failure => (⟨file, .failed failure⟩, tree)

/-- The artifacts of modules, one after the other, and the files afterwards. -/
def artifacts (batch : Batch) (tree : Tree) : List Location → List Artifact × Tree
  | [] => ([], tree)
  | file :: rest =>
    let (first, tree) := batch.artifact tree file
    let (others, tree) := batch.artifacts tree rest
    (first :: others, tree)

/-- Builds the folder. -/
def run (batch : Batch) (tree : Tree) : Except Failure (Report × Tree) := do
  let files ← batch.settings.sources.find tree batch.source
  let (made, after) := batch.artifacts tree files
  pure (⟨batch.isDryRun, made⟩, after)

end Batch

/-! ### Templates and previews -/

/-- Compiles a component. -/
def makeTemplate (options : Template.Options) (_ : Tree) (file : Location) (component : Value) :
    Pass Product := do
  let compiled ← Compile.template options true component .null (some file.text)
  pure ⟨compiled.text, some compiled.summary⟩

/-- The batch that builds the templates of a folder. -/
def templates (config : Mapping) (source : Location) (target : Option Location) (isDryRun : Bool) :
    Except Failure Batch := do
  let settings ← Settings.ofConfig config
  pure
    { settings, source, target := target.getD source, suffix := ← templateSuffix config, isDryRun,
      isBuilding := true, make := makeTemplate settings.options }

/-- The data for the preview of a component. -/
def previewData (isBuilding : Bool) (suffix : Value) (tree : Tree) (file : Location)
    (component : Value) : Pass Mapping :=
  match replaceSuffix file suffix with
  | .error failure => throw failure
  | .ok dataFile =>
    if tree.isFile dataFile then
      match tree.readJson .root dataFile none with
      | .ok (.map entries) => pure entries
      | .ok _ => throw (.previewDataNoMapping dataFile.text)
      | .error failure => throw failure
    else Component.samples isBuilding component

/-- Renders a component with its data. -/
def makePreview (isBuilding : Bool) (dataSuffix : Value) (tree : Tree) (file : Location)
    (component : Value) : Pass Product := do
  let data ← previewData isBuilding dataSuffix tree file component
  pure ⟨← Compile.preview isBuilding component (.map data), none⟩

/-- The batch that builds the previews of a folder. -/
def previews (config : Mapping) (isBuilding : Bool) (source target : Location) :
    Except Failure Batch := do
  pure
    { settings := ← Settings.ofConfig config, source, target, suffix := ← previewSuffix config,
      isDryRun := false, isBuilding, make := makePreview isBuilding (← dataSuffix config) }

/-! ### Laws -/

/-- There is one artifact for each module, in the same order. -/
theorem Batch.source_artifacts (batch : Batch) (tree : Tree) (files : List Location) :
    (batch.artifacts tree files).1.map Artifact.source = files := by
  induction files generalizing tree with
  | nil => rfl
  | cons file rest ih =>
    have h : (batch.artifact tree file).1.source = file := by
      unfold Batch.artifact
      split <;> rfl
    simp [Batch.artifacts, h, ih]

/-- A dry run leaves the files as they are. -/
theorem Batch.tree_artifacts_of_isDryRun {batch : Batch} (h : batch.isDryRun = true) (tree : Tree)
    (files : List Location) : (batch.artifacts tree files).2 = tree := by
  have one : ∀ file, (batch.artifact tree file).2 = tree := by
    intro file
    unfold Batch.artifact
    split
    case h_2 => rfl
    case h_1 outcome after ha =>
      unfold Batch.attempt at ha
      cases hp : (batch.produce tree file).run {} with
      | error failure => simp [hp, bind, Except.bind] at ha
      | ok made =>
        obtain ⟨product, session⟩ := made
        cases product with
        | none => simp_all [bind, Except.bind, pure, Except.pure]
        | some product =>
          cases ho : batch.outputOf file with
          | error failure => simp [hp, ho, bind, Except.bind] at ha
          | ok output => simp_all [bind, Except.bind, pure, Except.pure]
  induction files with
  | nil => rfl
  | cons file rest ih => simp [Batch.artifacts, one, ih]

end Stencil.Build
