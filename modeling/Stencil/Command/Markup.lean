import Stencil.Command.Workspace
import Stencil.Compile
import Stencil.Files.Document

/-!
# Requests for the template of some markup

The markup comes from a file or from the input, and the paths of its marker tokens from a JSON object. A
token whose path is nothing stays unbound, as if it were not mentioned.
-/

namespace Stencil.Command

/-- The bindings in a mapping of tokens to paths. -/
def bindingsOf (entries : Mapping) : List (String × String) :=
  (entries.filter fun entry => !entry.2.isNull).map fun (token, path) =>
    (token.displayString, path.displayString)

/-- The registry with some bindings. -/
def bindAll (bindings : List (String × String)) : Except Failure Marker.Registry :=
  bindings.foldlM (fun markers (token, path) => markers.bind token path) {}

/-- The registry that a file of markers makes. -/
def readMarkers (w : Workspace) (file : String) : Except Failure Marker.Registry :=
  match w.tree.readJson w.folder (.ofString file) none with
  | .ok (.map entries) => bindAll (bindingsOf entries)
  | .ok _ => .error (.markersNoMapping file)
  | .error failure => .error failure

/-- The markup that a request is about. -/
def readMarkup (w : Workspace) (file : Option String) : Except Failure Text :=
  match file with
  | some s => w.tree.read w.folder (.ofString s)
  | none => .ok w.input

/-- The template for markup, and what happened on the way to it. -/
def templateOf (config : Mapping) (markers : Marker.Registry) (source : Option String)
    (markup : Text) : Except Failure (Text × Template.Summary) := do
  let options ← Template.Options.ofConfig config
  let (result, journal) := (options.compileMarkup ⟨markers, source⟩ markup).run.run []
  pure (← result, Template.summarize markers journal)

/-- Writes the template for markup. -/
def compileMarkup (w : Workspace) (manner : Manner) (file markers : Option String) :
    Job (Nat × Text) := do
  let config ← prepare w manner
  let markup ← Job.ofResult (readMarkup w file)
  let registry ← Job.ofResult ((markers.map (readMarkers w)).getD (.ok {}))
  let source := file.map fun s => (Location.ofString s).text
  let (text, summary) ← Job.ofResult (templateOf config registry source markup)
  pure (0,
    if manner.isJson then
      jsonText (named [("template", .str (String.ofList text)), ("summary", summary.toValue)])
    else text)

/-- Whether a failure is reported: one of this program, of the files or of a value. -/
def isOwnOrOfFilesOrValues (failure : Failure) : Bool :=
  isOwnOrOfFiles failure || failure.isOfValues

/-- A token without a path is not bound. -/
theorem bindingsOf_cons_null (token : Value) (entries : Mapping) :
    bindingsOf ((token, .null) :: entries) = bindingsOf entries := by
  simp [bindingsOf, Value.isNull]

end Stencil.Command
