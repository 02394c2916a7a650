import Stencil.Failure
import Stencil.Text.Word

/-!
# The schema of a configuration

What a valid configuration looks like, and the problems of one that is not. A `Schema` says what a value
must be; `Schema.problems` lists all that is wrong with a value, each with the path where it is wrong.

Problems are reported in the order of their paths: those of a mapping come before those of its entries,
and those at one place keep the order in which they are found. A character that must be the last one may
be followed by one line feed.
-/

namespace Stencil.Config

/-- What a text must look like. -/
structure Pattern where
  /-- The pattern as it is reported. -/
  shown : String
  /-- Whether a text looks like it. -/
  accepts : Text → Bool

/-- What a value must be. -/
inductive Schema where
  /-- A text that follows a pattern. -/
  | text (pattern : Option Pattern) (isNeeded : Bool)
  /-- One of some texts. -/
  | choice (names : List String)
  /-- A text or nothing. -/
  | textOrNothing
  /-- A truth value. -/
  | truth
  /-- A list of values. -/
  | listOf (items : Schema)
  /-- A mapping with some names. -/
  | record (entries : List (String × Schema))

/-- Something wrong in a configuration. -/
structure Problem where
  /-- Where it is. -/
  path : List Segment
  /-- What it is. -/
  message : String

/-! ### Finding problems -/

/-- A value of another kind than those that are allowed. -/
def wrongType (v : Value) (types : List String) : String :=
  String.ofList v.inspect ++ " is not of type " ++ String.intercalate ", " (types.map Failure.shown)

/-- The problem of a value of the wrong kind. -/
def typeProblem (path : List Segment) (v : Value) (isRight : Bool) (types : List String) :
    List Problem :=
  if isRight then [] else [⟨path, wrongType v types⟩]

/-- The problems of a text. -/
def textProblems (pattern : Option Pattern) (isNeeded : Bool) (path : List Segment) (v : Value) :
    List Problem :=
  match v.text? with
  | none => typeProblem path v false ["string"]
  | some s =>
    let shown := String.ofList v.inspect
    let mismatch :=
      match pattern with
      | some p =>
        if p.accepts s.toList then []
        else [⟨path, shown ++ " does not match " ++ Failure.shown p.shown⟩]
      | none => []
    mismatch ++ if isNeeded && s.isEmpty then [⟨path, shown ++ " should be non-empty"⟩] else []

/-- The problems of a choice. -/
def choiceProblems (names : List String) (path : List Segment) (v : Value) : List Problem :=
  typeProblem path v v.text?.isSome ["string"] ++
    if (v.text?.map names.contains).getD false then []
    else
      [⟨path, String.ofList v.inspect ++ " is not one of " ++
        (Value.list (names.map .str)).displayString⟩]

/-- Whether a value is a truth value. -/
def isBool : Value → Bool
  | .bool _ => true
  | _ => false

/-- The keys of a mapping that are not among some names, in the order of their texts. -/
def unknownKeys (names : List String) (entries : Mapping) : List Value :=
  let keys := entries.filterMap fun (key, _) =>
    if (key.text?.map names.contains).getD false then none else some key
  keys.mergeSort fun a b => a.displayString ≤ b.displayString

/-- The problem of unknown keys. -/
def unknownProblem (names : List String) (path : List Segment) (entries : Mapping) : List Problem :=
  match unknownKeys names entries with
  | [] => []
  | keys =>
    [⟨path, "Additional properties are not allowed (" ++
      String.intercalate ", " (keys.map fun key => String.ofList key.inspect) ++
      (if keys.length = 1 then " was" else " were") ++ " unexpected)"⟩]

/-- Values with their positions. -/
def numbered (path : List Segment) (items : List Value) : List (List Segment × Value) :=
  items.zipIdx.map fun (v, i) => (path ++ [.index i], v)

mutual

/-- Everything that is wrong with the value at a path. -/
def Schema.problems (path : List Segment) (v : Value) : Schema → List Problem
  | .text pattern isNeeded => textProblems pattern isNeeded path v
  | .choice names => choiceProblems names path v
  | .textOrNothing => typeProblem path v (v.isNull || v.text?.isSome) ["string", "null"]
  | .truth => typeProblem path v (isBool v) ["boolean"]
  | .listOf items =>
    match v with
    | .list values => (numbered path values).flatMap fun (p, item) => items.problems p item
    | _ => typeProblem path v false ["array"]
  | .record entries =>
    match v with
    | .map values =>
      entryProblems path values entries ++ unknownProblem (entries.map Prod.fst) path values
    | _ => typeProblem path v false ["object"]

/-- Everything that is wrong with the entries of a mapping that a schema names. -/
def entryProblems (path : List Segment) (values : Mapping) : List (String × Schema) → List Problem
  | [] => []
  | (name, schema) :: rest =>
    (match values.at? name with
      | some v => schema.problems (path ++ [.key name]) v
      | none => []) ++ entryProblems path values rest

end

/-! ### Reporting problems -/

/-- The order of two steps. -/
def compareSteps : Segment → Segment → Ordering
  | .key a, .key b => compare a b
  | .index a, .index b => compare a b
  | .index _, .key _ => .lt
  | .key _, .index _ => .gt

/-- Whether a path comes first or at the same place. -/
def pathLe : List Segment → List Segment → Bool
  | [], _ => true
  | _ :: _, [] => false
  | a :: as, b :: bs =>
    match compareSteps a b with
    | .lt => true
    | .gt => false
    | .eq => pathLe as bs

/-- A step as it is reported. -/
def stepText : Segment → String
  | .key name => name
  | .index i => String.ofList (Decimal.intText i)

/-- A problem as it is reported. -/
def Problem.text (p : Problem) : String :=
  let place := String.intercalate "." (p.path.map stepText)
  (if place.isEmpty then "<root>" else place) ++ ": " ++ p.message

/-- What is wrong with a configuration, in the order of the report. -/
def Schema.report (schema : Schema) (config : Mapping) : List String :=
  ((schema.problems [] (.map config)).mergeSort fun a b => pathLe a.path b.path).map Problem.text

/-- Refuses a configuration with problems. -/
def Schema.check (schema : Schema) (config : Mapping) : Except Failure Unit :=
  match schema.report config with
  | [] => .ok ()
  | details => .error (.invalidConfig details)

/-! ### The schema -/

/-- A text without the line feed at its end. -/
def withoutLineFeed (t : Text) : Text := if t.getLast? = some '\n' then t.dropLast else t

/-- Whether all characters but a line feed at the end pass a test. -/
def allButLineFeed (p : Char → Bool) (t : Text) : Bool := (withoutLineFeed t).all p

/-- A file suffix. -/
def suffixPattern : Pattern := ⟨"^\\.", fun t => t.head? == some '.'⟩

/-- The beginning of a marker token. -/
def markerPattern : Pattern :=
  ⟨"^[A-Za-z0-9_]+$", fun t =>
    allButLineFeed Text.isAsciiWord t && !(withoutLineFeed t).isEmpty⟩

/-- The end of a marker token. -/
def markerEndPattern : Pattern := ⟨"^[A-Za-z0-9_]*$", allButLineFeed Text.isAsciiWord⟩

/-- The name of an attribute. -/
def attributePattern : Pattern :=
  ⟨"^[A-Za-z_:][-A-Za-z0-9_:.]*$", fun t =>
    match t with
    | [] => false
    | c :: rest =>
      (Text.isAsciiLetter c || c == '_' || c == ':') &&
        allButLineFeed (fun c => Text.isAsciiWord c || c == '-' || c == ':' || c == '.') rest⟩

/-- A text of any form. -/
def Schema.anyText : Schema := .text none false

/-- A text that is not empty. -/
def Schema.someText : Schema := .text none true

/-- A file suffix. -/
def Schema.suffix : Schema := .text (some suffixPattern) false

/-- The schema of a configuration. -/
def schema : Schema :=
  .record
    [("build", .record
        [("source_suffixes", .listOf .suffix), ("skip_prefixes", .listOf .anyText),
          ("output_suffix", .suffix), ("component_attributes", .listOf .someText)]),
      ("preview", .record
        [("output_dir", .someText), ("output_suffix", .suffix), ("data_suffix", .suffix)]),
      ("markers", .record
        [("prefix", .text (some markerPattern) true),
          ("suffix", .text (some markerEndPattern) false), ("strict", .truth)]),
      ("cleanup", .record
        [("strip_comments", .truth),
          ("strip_attributes", .listOf (.text (some attributePattern) false))]),
      ("logging", .record
        [("level", .choice ["DEBUG", "INFO", "WARNING", "ERROR", "CRITICAL"]),
          ("file", .textOrNothing)])]

end Stencil.Config
