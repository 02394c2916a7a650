import Stencil.Config.Section
import Stencil.Marker.Sample
import Stencil.Render.Tree
import Stencil.Template.Stage

/-!
# Compiling components

A component becomes a template in three steps: its sample data is replaced by marker tokens, it is
rendered with them, and the markup goes through the stages of `Stencil.Template`. The same component
becomes a preview by rendering it with real data.

A compilation has a registry and a journal of its own; nothing is shared between artifacts.
-/

namespace Stencil

/-- The options that a configuration gives, in its sections `markers` and `cleanup`. -/
def Template.Options.ofConfig (config : Mapping) : Except Failure Template.Options := do
  let markers ← Config.sectionOf config "markers"
  let cleanup ← Config.sectionOf config "cleanup"
  let attributes := cleanup.getD "strip_attributes"
  pure (.ofSettings (Config.given markers "prefix" "__PROP_") (Config.given markers "suffix" "__")
    (markers.getD "strict").holds ((cleanup.at? "strip_comments").getD (.bool true)).holds
    (← if attributes.holds then attributes.parts else .ok []))

namespace Compile

/-- Markup that was rendered for a template, and the markers in it. -/
structure Marked where
  /-- The markup. -/
  text : Text
  /-- The markers. -/
  markers : Marker.Registry

/-- The result of compiling a component. -/
structure Compiled where
  /-- The template. -/
  text : Text
  /-- The markers it was rendered with. -/
  markers : Marker.Registry
  /-- What happened. -/
  summary : Template.Summary
  /-- The file the component comes from. -/
  source : Option String

/-- Properties with markers for sample data, and the markers. -/
def markedProps (shape : Marker.Shape) (sample : Mapping) :
    Except Failure Mapping × Marker.Registry :=
  (Marker.markEntries shape "" sample).run.run {}

/-- Renders a component for a template. -/
def renderMarkers (options : Template.Options) (isBuilding : Bool) (component : Value)
    (sample : Mapping) : Pass Marked :=
  match markedProps options.shape sample with
  | (.error failure, _) => throw failure
  | (.ok props, markers) => do
    let text ← Render.renderComponent ⟨.markers, isBuilding⟩ options.depth
      { markers := some markers } component props
    pure ⟨text, markers⟩

/-- Given sample data, or that of the component. What counts as nothing but is given is no sample data. -/
def sampleFor (isBuilding : Bool) (component given : Value) : Pass Mapping :=
  if given.isNull then Component.samples isBuilding component else Element.properties given

/-- Given data, or the sample data of the component. -/
def dataFor (isBuilding : Bool) (component given : Value) : Pass Mapping :=
  if given.isNull then Component.samples isBuilding component else Element.dictionary given

/-- Compiles rendered markup and reports on it. -/
def finish (options : Template.Options) (source : Option String) (marked : Marked) :
    Except Failure Compiled :=
  match (options.compileMarkup ⟨marked.markers, source⟩ marked.text).run.run [] with
  | (.ok text, journal) =>
    .ok ⟨text, marked.markers, Template.summarize marked.markers journal, source⟩
  | (.error failure, _) => .error failure

/-- Compiles a component. -/
def template (options : Template.Options) (isBuilding : Bool) (component given : Value)
    (source : Option String) : Pass Compiled := do
  let sample ← sampleFor isBuilding component given
  let marked ← renderMarkers options isBuilding component sample
  match finish options source marked with
  | .ok compiled => pure compiled
  | .error failure => throw failure

/-- Renders a component as a preview. -/
def preview (isBuilding : Bool) (component given : Value) : Pass Text := do
  let props ← dataFor isBuilding component given
  Render.renderComponent ⟨.preview, isBuilding⟩ depthLimit {} component props

end Compile

end Stencil
