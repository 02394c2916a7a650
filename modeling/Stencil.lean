import Stencil.Build.Batch
import Stencil.Build.Module
import Stencil.Build.Report
import Stencil.Build.Settings
import Stencil.Build.Sources
import Stencil.Command.Build
import Stencil.Command.Markup
import Stencil.Command.Request
import Stencil.Command.Run
import Stencil.Command.Show
import Stencil.Command.Words
import Stencil.Command.Workspace
import Stencil.Compile
import Stencil.Component.Document
import Stencil.Component.Element
import Stencil.Component.Evaluate
import Stencil.Component.Session
import Stencil.Condition
import Stencil.Config.Defaults
import Stencil.Config.Environment
import Stencil.Config.Merge
import Stencil.Config.Project
import Stencil.Config.Schema
import Stencil.Config.Section
import Stencil.Config.Store
import Stencil.Decimal.Literal
import Stencil.Decimal.Number
import Stencil.Decimal.Shortest
import Stencil.Failure
import Stencil.Files.Document
import Stencil.Files.Location
import Stencil.Files.Tree
import Stencil.Json.Reader
import Stencil.Json.Writer
import Stencil.Main
import Stencil.Marker.Registry
import Stencil.Marker.Sample
import Stencil.Marker.Token
import Stencil.Markup.Escape
import Stencil.Markup.Tag
import Stencil.Path
import Stencil.Proofs.Template.Blocks
import Stencil.Proofs.Template.Kind
import Stencil.Proofs.Template.Layout
import Stencil.Proofs.Template.Naming
import Stencil.Proofs.Template.Region
import Stencil.Proofs.Text.Fields
import Stencil.Proofs.Text.Scanning
import Stencil.Proofs.Text.Unescape
import Stencil.Render.Context
import Stencil.Render.Tree
import Stencil.Template.Alternative
import Stencil.Template.Cleanup
import Stencil.Template.Journal
import Stencil.Template.Lowering
import Stencil.Template.PseudoTag
import Stencil.Template.Stage
import Stencil.Template.Substitution
import Stencil.Text.Base64
import Stencil.Text.Basic
import Stencil.Text.Blank
import Stencil.Text.Case
import Stencil.Text.Quoted
import Stencil.Text.Reference
import Stencil.Text.Table.Case
import Stencil.Text.Table.Digit
import Stencil.Text.Table.Printable
import Stencil.Text.Table.Reference
import Stencil.Text.Table.Word
import Stencil.Text.Word
import Stencil.Value.Basic
import Stencil.Value.Display
import Stencil.Value.Items
import Stencil.Value.Mapping
import Stencil.Value.Moment
import Stencil.Yaml.BlockText
import Stencil.Yaml.Cursor
import Stencil.Yaml.Kind
import Stencil.Yaml.Node
import Stencil.Yaml.Plain
import Stencil.Yaml.Quoted
import Stencil.Yaml.Reader
import Stencil.Yaml.Scalar
import Stencil.Yaml.Tag
import Stencil.Yaml.Time
import Stencil.Yaml.Token
import Stencil.Yaml.Writer
import Stencil.Proofs.Template.Outline
import Stencil.Proofs.Component.Tree
import Stencil.Proofs.Render.Markers
import Stencil.Proofs.Template.Content
import Stencil.Proofs.Template.Reading
import Stencil.Proofs.Template.Scope
import Stencil.Proofs.Marker.Sample
import Stencil.Proofs.Template.Substitution
import Stencil.Proofs.Render.Names
import Stencil.Proofs.Template.Cleanup
import Stencil.Proofs.Compile.Levels
import Stencil.Proofs.Compile.NestedLoops
import Stencil.Proofs.Compile.Nested
import Stencil.Proofs.Compile.Samples
import Stencil.Proofs.Marker.Bindings
import Stencil.Proofs.Condition
import Stencil.Proofs.Template.Meaning
import Stencil.Proofs.Component.Lookups
import Stencil.Proofs.Value.Data
import Stencil.Proofs.Render.Preview
import Stencil.Proofs.Render.Scoping
import Stencil.Proofs.Render.Rejected
import Stencil.Proofs.Template.Pass
import Stencil.Proofs.Template.Progress
import Stencil.Proofs.Template.Stable
import Stencil.Proofs.Template.Nesting
import Stencil.Proofs.Markup.Token
import Stencil.Proofs.Component.Tame
import Stencil.Proofs.Render.Expansion
import Stencil.Proofs.Text.Runs
import Stencil.Proofs.Template.Unbound
import Stencil.Proofs.Command.Unbound
import Stencil.Proofs.Compile.Listing
import Stencil.Proofs.Compile.Choice
import Stencil.Proofs.Render.Regrouped
import Stencil.Proofs.Template.Settling
import Stencil.Proofs.Template.Ending
import Stencil.Proofs.Template.Selection
import Stencil.Proofs.Template.Disjunction
import Stencil.Proofs.Template.Renaming
import Stencil.Proofs.Template.Surroundings
import Stencil.Proofs.Condition.Lookups
import Stencil.Proofs.Marker.History
import Stencil.Proofs.Marker.Leaves
import Stencil.Proofs.Path.Chains
import Stencil.Proofs.Render.Attributes
import Stencil.Proofs.Template.Comments
import Stencil.Proofs.Template.Siblings
import Stencil.Proofs.Config.Setting
import Stencil.Proofs.Config.Overrides
import Stencil.Proofs.Config.Layers
