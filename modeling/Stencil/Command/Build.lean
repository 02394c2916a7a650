import Stencil.Build.Batch
import Stencil.Command.Workspace

/-!
# Requests for templates and previews

Both build a folder and report on it, as JSON or line by line. The exit code is zero when every artifact
was made.
-/

namespace Stencil.Command

open Build

/-- The exit code for a report. -/
def reportCode (report : Report) : Nat := if report.isFine then 0 else 1

/-- Builds a folder. -/
def runBatch (batch : Except Failure Batch) : Job Report := do
  let batch ← Job.ofResult batch
  Job.ofChange batch.run

/-- The name of a module below its folder. -/
def moduleText (folder : Location) (a : Artifact) : String := (folder.relativeTo a.source).text

/-! ### Templates -/

/-- The line about the template of a module. -/
def templateLine (folder : Location) (isDryRun : Bool) (a : Artifact) : String :=
  let name := moduleText folder a
  match a.outcome with
  | .built output _ =>
    "✓ " ++ (if isDryRun then "Would build" else "Built") ++ ": " ++ name ++ " → " ++ output.text
  | .failed failure => "✗ Error building " ++ name ++ ": " ++ failure.message
  | .skipped => "- Skipped: " ++ name ++ " (no component)"

/-- The line with the numbers of templates. -/
def templateCounts (report : Report) : String :=
  toString (report.count .built) ++ " built, " ++ toString (report.count .failed) ++ " failed, " ++
    toString (report.count .skipped) ++ " skipped"

/-- What is written about the templates of a folder. -/
def templateReport (folder : Location) (report : Report) : Text :=
  (report.artifacts.map (templateLine folder report.isDryRun) ++ ["", templateCounts report]).flatMap
    fun s => line s.toList

/-- Builds the templates of a folder. -/
def buildTemplates (w : Workspace) (manner : Manner) (folder : String) (output : Option String)
    (isDryRun : Bool) : Job (Nat × Text) := do
  let config ← prepare w manner
  let source := w.folder.normal (.ofString folder)
  let target := output.map fun s => w.folder.normal (.ofString s)
  let report ← runBatch (templates config source target isDryRun)
  pure (reportCode report,
    if manner.isJson then jsonText report.toValue else templateReport source report)

/-! ### Previews -/

/-- The line about the preview of a module, if there is something to say. -/
def previewLine? (folder : Location) (a : Artifact) : Option String :=
  match a.outcome with
  | .built output _ => some ("✓ Generated: " ++ output.text)
  | .failed failure =>
    some ("✗ Error processing " ++ moduleText folder a ++ ": " ++ failure.message)
  | .skipped => none

/-- The line with the number of previews. -/
def previewCount (target : Location) (report : Report) : String :=
  "Generated " ++ toString (report.count .built) ++ " preview file(s) in " ++ target.text

/-- What is written about the previews of a folder. -/
def previewReport (folder target : Location) (report : Report) : Text :=
  (report.artifacts.filterMap (previewLine? folder) ++ ["", previewCount target report]).flatMap
    fun s => line s.toList

/-- The folder for previews that a configuration names. -/
def previewFolder (config : Mapping) : Except Failure String :=
  match (config.getD "preview").toMapping.at? "output_dir" with
  | some v => .ok v.displayString
  | none => .error (.noEntry "output_dir")

/-- Builds the previews of a folder. -/
def buildPreviews (w : Workspace) (manner : Manner) (folder : String) (output : Option String) :
    Job (Nat × Text) := do
  let config ← prepare w manner
  let source := w.folder.normal (.ofString folder)
  let given ← Job.ofResult ((output.map Except.ok).getD (previewFolder config))
  let target := w.folder.normal (.ofString given)
  let isBuilding := Render.Mode.ofEnvironment w.environment Render.modeVariable = .markers
  let report ← runBatch (previews config isBuilding source target)
  pure (reportCode report,
    if manner.isJson then jsonText report.toValue else previewReport source target report)

end Stencil.Command
