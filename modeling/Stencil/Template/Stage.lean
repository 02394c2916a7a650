import Stencil.Component.Session
import Stencil.Template.Cleanup
import Stencil.Template.Lowering
import Stencil.Template.Substitution

/-!
# The stages of a compilation

Rendered markup becomes a template in stages: comments and host attributes are stripped, markers become
references, pseudo-tags become blocks, and at last the text is checked to hold no pseudo-tag any more.
-/

namespace Stencil.Template

/-- One stage of a compilation. -/
inductive Stage where
  /-- Strips ordinary comments. -/
  | comments
  /-- Strips some attributes. -/
  | attributes (names : List String)
  /-- Replaces marker tokens. -/
  | markers (shape : Marker.Shape) (strict : Bool)
  /-- Lowers pseudo-tags to blocks. -/
  | pseudoTags
  /-- Refuses a text with pseudo-tags. -/
  | validation
  deriving DecidableEq, Repr

/-- What is compiled: the markers it was rendered with, and the file it comes from. -/
structure Artifact where
  /-- The markers. -/
  markers : Marker.Registry := {}
  /-- The file. -/
  source : Option String := none

/-- Refuses a text with pseudo-tags. -/
def refuseUnbalanced (source : Option String) (t : Text) : Work Text :=
  match unbalanced t with
  | [] => pure t
  | remaining => throw (.unbalancedTags source remaining)

/-- Sends a text through a stage. -/
def Stage.run (artifact : Artifact) (t : Text) : Stage → Work Text
  | comments => pure (stripComments t)
  | attributes names => pure (stripAttributes names t)
  | markers shape strict =>
    substitute shape strict (artifact.markers.paths.map fun (token, path) => (token, some path)) t
  | pseudoTags => lowerTags t
  | validation => refuseUnbalanced artifact.source t

/-- Sends a text through stages. -/
def runStages (artifact : Artifact) : List Stage → Text → Work Text
  | [], t => pure t
  | stage :: rest, t => do runStages artifact rest (← stage.run artifact t)

/-- How templates are compiled. -/
structure Options where
  /-- The shape of marker tokens. -/
  shape : Marker.Shape := {}
  /-- Whether a marker without a path is a failure. -/
  strict : Bool := false
  /-- Whether ordinary comments are stripped. -/
  stripComments : Bool := true
  /-- The attributes that are stripped. -/
  stripAttributes : List String := ["data-id"]
  /-- How many trees a tree may go on in, one inside the other. -/
  depth : Nat := depthLimit
  /-- Why nothing can be compiled, if one of the settings cannot be looked for in markup. -/
  fault : Option Failure := none

/-- The stages that markup goes through. -/
def Options.stages (options : Options) : List Stage :=
  (if options.stripComments then [.comments] else []) ++
    (if options.stripAttributes.isEmpty then [] else [.attributes options.stripAttributes]) ++
    [.markers options.shape options.strict, .pseudoTags, .validation]

/-- Compiles rendered markup. -/
def Options.compileMarkup (options : Options) (artifact : Artifact) (t : Text) : Work Text :=
  match options.fault with
  | some failure => throw failure
  | none => runStages artifact options.stages t

/-- With settings that can be looked for, markup goes through the stages. -/
@[simp] theorem Options.compileMarkup_of_fault_eq_none {options : Options}
    (h : options.fault = none) (artifact : Artifact) (t : Text) :
    options.compileMarkup artifact t = runStages artifact options.stages t := by
  simp [compileMarkup, h]

/-! ### Options from settings -/

/-- Why a value that is no text cannot be a part of what is looked for in markup. -/
def partFault? : Value → Option Failure
  | .str _ | .raw _ | .bytes _ => none
  | v => some (.noPattern v.typeName)

/-- Why some values cannot be the names of attributes that are looked for. -/
def namesFault? (names : List Value) : Option Failure :=
  (names.findSome? partFault?).or
    ((names.findIdx? fun name => name.text?.isNone).map .bytesAmongTexts)

/-- Why two values cannot be the beginning and the end of tokens that are looked for. -/
def shapeFault? (lead tail : Value) : Option Failure :=
  match partFault? lead, lead.text?, partFault? tail, tail.text? with
  | some failure, _, _, _ => some failure
  | none, none, _, _ => some (.noJoin lead.typeName)
  | none, some _, some failure, _ => some failure
  | none, some _, none, none => some (.noName tail.typeName)
  | none, some _, none, some _ => none

/-- The options of some settings. The beginning and the end of tokens are shown in the tokens as they
are, but are looked for only if they are texts, as are the names of attributes. -/
def Options.ofSettings (lead tail : Value) (strict stripComments : Bool) (names : List Value) :
    Options :=
  { shape := ⟨lead.displayString, tail.displayString⟩
    strict, stripComments
    stripAttributes := names.filterMap Value.text?
    fault := (namesFault? names).or (shapeFault? lead tail) }

/-- Texts can be the names of attributes. -/
theorem namesFault?_map_str (names : List String) : namesFault? (names.map .str) = none := by
  have h : (names.map Value.str).findSome? partFault? = none := by
    simp [List.findSome?_map, partFault?, Function.comp_def]
  have h' : (names.map Value.str).findIdx? (fun name => name.text?.isNone) = none := by
    simp [List.findIdx?_eq_none_iff, Value.text?]
  simp [namesFault?, h, h']

/-- Settings that are texts can be looked for. -/
theorem Options.ofSettings_str (lead tail : String) (strict stripComments : Bool)
    (names : List String) :
    ofSettings (.str lead) (.str tail) strict stripComments (names.map .str) =
      { shape := ⟨lead, tail⟩, strict, stripComments, stripAttributes := names } := by
  simp [ofSettings, namesFault?_map_str, shapeFault?, partFault?, Value.text?, List.filterMap_map,
    Function.comp_def, Value.displayString]

end Stencil.Template
