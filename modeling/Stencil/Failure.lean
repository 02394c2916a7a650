import Stencil.Value.Display

/-!
# Failures

Everything that can go wrong, by cause. `Failure.message` is the text that is reported,
`Failure.code` the name of the kind of failure, and `Failure.context` the facts that go with it, in
order. The failures of this program itself carry a context; those of the component being rendered,
of the file system and of the readers do not, and `Failure.isOwn` tells the two apart.
-/

namespace Stencil

/-- Why something could not be done. -/
inductive Failure where
  /-- A condition that is blank or no text at all. -/
  | emptyCondition (given : Value)
  /-- A condition with terms that are no paths. -/
  | unusableTerms (condition : String) (terms : List String)
  /-- A marker token in the markup that stands for no path. -/
  | unresolvedMarker (token : String)
  /-- Pseudo-tags that are left at the end, with their numbers, in the order of the markup. -/
  | unbalancedTags (source : Option String) (remaining : List (String × Nat))
  /-- Two paths that would share one marker token. -/
  | markerCollision (token bound new : String)
  /-- A file that is no component module. -/
  | unloadable (path : String)
  /-- A component module that fails while it is loaded. -/
  | brokenModule (path reason : String)
  /-- A configuration file that cannot be read. -/
  | unreadableConfig (path : String)
  /-- A configuration file that holds no mapping. -/
  | configNoMapping (path : String)
  /-- A variable of the environment that names no configuration key. -/
  | malformedVariable (name : String)
  /-- A configuration that breaks the schema. -/
  | invalidConfig (details : List String)
  /-- A marker file that holds no mapping. -/
  | markersNoMapping (path : String)
  /-- A file of preview data that holds no mapping. -/
  | previewDataNoMapping (path : String)
  /-- A failure of the component being rendered. -/
  | raised (kind text : String)
  /-- A mapping among the children of an element. -/
  | mappingAsChild (keys : List String)
  /-- A component or render function where a node is needed. -/
  | closureAsChild (name : String)
  /-- An element whose type is no tag, component or helper. -/
  | invalidType (shown : String)
  /-- Sample data that is no mapping. -/
  | samplesNoMapping (owner kind : String)
  /-- A value that lacks what every value in its place has. -/
  | noMember (kind member : String)
  /-- A value that is no sequence, where the items of one are needed. -/
  | noSequence (kind : String)
  /-- A name that is no text, in the place of a reference. -/
  | noName (kind : String)
  /-- A value that is no text, where one is searched. -/
  | noText (kind : String)
  /-- The name of an item that is no text, where a path is compared with it. -/
  | noJoin (kind : String)
  /-- A value without items, where one of them is looked for. -/
  | noContainer (kind : String)
  /-- A value that cannot be asked for an item at a position. -/
  | noPositions (kind : String)
  /-- A value without items, behind the items of another one. -/
  | noSpread (kind : String)
  /-- A value that is no text, where it is to be found in markup. -/
  | noPattern (kind : String)
  /-- Bytes at a position among texts that are to be put together. -/
  | bytesAmongTexts (position : Nat)
  /-- A component that cannot be called. -/
  | notCallable (kind : String)
  /-- A component called with an argument whose name is no text. -/
  | argumentNoText
  /-- A position before the start of a list. -/
  | outOfList
  /-- A position before the start of a tuple. -/
  | outOfTuple
  /-- A mapping without an entry that must be there. -/
  | noEntry (name : String)
  /-- A value that cannot be a key of a mapping. -/
  | noKey (kind : String)
  /-- An item, at a position among those that make up a mapping, that holds no items. -/
  | noEntryItems (position : Nat)
  /-- An item, at a position among those that make up a mapping, that is no pair. -/
  | noPair (position length : Nat)
  /-- A text that is no integer in a base. -/
  | noInteger (base : Nat) (text : String)
  /-- An integer with more digits than are read. -/
  | tooManyDigits (count : Nat)
  /-- A text that is no floating point number. -/
  | noFloat (text : String)
  /-- A number without a first character. -/
  | emptyNumber
  /-- A number that is no code of a character. -/
  | noCharacter
  /-- A number that is too large to be looked at as the code of a character. -/
  | hugeCode
  /-- A day or moment that there is not. -/
  | noMoment (fault : Moment.Fault)
  /-- A file suffix that does not begin with a dot or has nothing behind it. -/
  | noSuffix (text : String)
  /-- A file that does not exist. -/
  | noFile (path : String)
  /-- A directory that does not exist. -/
  | noDirectory (path : String)
  /-- A file where a directory is needed. -/
  | notADirectory (path : String)
  /-- A directory that would lie inside a file. -/
  | insideFile (path : String)
  /-- A directory where a file is to be written. -/
  | notAFile (path : String)
  /-- A document that is no JSON, and where reading stopped. -/
  | malformedJson (problem : String) (line column offset : Nat)
  /-- A document that is no YAML. -/
  | malformedYaml
  /-- Components that call each other without end. -/
  | tooDeep

namespace Failure

/-- A quoted text. -/
def shown (s : String) : String := String.ofList (Text.quoted s.toList)

/-- Numbered tags in the order of their names. -/
def tagCounts (remaining : List (String × Nat)) : String :=
  let sorted := remaining.mergeSort fun a b => a.1 ≤ b.1
  String.intercalate ", " (sorted.map fun (tag, n) => tag ++ " x" ++ toString n)

/-- The text of a failure. -/
def message : Failure → String
  | emptyCondition _ => "Empty condition"
  | unusableTerms condition terms =>
    "Invalid condition " ++ shown condition ++ ": unusable term(s) " ++
      (Value.list (terms.map .str)).displayString
  | unresolvedMarker token => "Marker token has no bound path: " ++ token
  | unbalancedTags source remaining =>
    "Unbalanced pseudo-tags" ++ (source.map fun s => " in " ++ s).getD "" ++ ": " ++
      tagCounts remaining
  | markerCollision token bound new =>
    "Marker token " ++ shown token ++ " already bound to " ++ shown bound ++ "; cannot bind " ++
      shown new
  | unloadable path => "Cannot load module from " ++ path
  | brokenModule path reason => "Error importing " ++ path ++ ": " ++ reason
  | unreadableConfig path => "Cannot read config file " ++ path
  | configNoMapping path => "Config file " ++ path ++ " must contain a mapping"
  | malformedVariable name => "Malformed HANDLEBARIZE_* key: " ++ name
  | invalidConfig details => "Invalid configuration:\n  " ++ String.intercalate "\n  " details
  | markersNoMapping path => "Marker file " ++ path ++ " must contain a JSON object"
  | previewDataNoMapping path => "Preview data in " ++ path ++ " must be a JSON object"
  | raised _ text => text
  | mappingAsChild keys =>
    "Mappings are not valid as a child (got keys " ++
      (Value.list ((keys.mergeSort (· ≤ ·)).map .str)).displayString ++ ")"
  | closureAsChild name =>
    "Callables are only valid as the render prop of Each, got <fn " ++ name ++ ">"
  | invalidType type => "Invalid element type: " ++ type
  | samplesNoMapping owner kind =>
    "preview_props of " ++ owner ++ " must be a mapping, got " ++ kind
  | noMember kind member =>
    shown kind ++ " object has no attribute " ++ shown member
  | noSequence kind => shown kind ++ " object is not iterable"
  | noName kind => "can only concatenate str (not \"" ++ kind ++ "\") to str"
  | noText kind => "expected string or bytes-like object, got " ++ shown kind
  | noJoin kind =>
    if kind = "list" || kind = "tuple" then
      "can only concatenate " ++ kind ++ " (not \"str\") to " ++ kind
    else if kind = "bytes" then "can't concat str to bytes"
    else "unsupported operand type(s) for +: " ++ shown kind ++ " and 'str'"
  | noContainer kind => "argument of type " ++ shown kind ++ " is not iterable"
  | noPositions kind => shown kind ++ " object is not subscriptable"
  | noSpread kind => "Value after * must be an iterable, not " ++ kind
  | noPattern kind => "decoding to str: need a bytes-like object, " ++ kind ++ " found"
  | bytesAmongTexts position =>
    "sequence item " ++ toString position ++ ": expected str instance, bytes found"
  | notCallable kind => shown kind ++ " object is not callable"
  | argumentNoText => "keywords must be strings"
  | outOfList => "list index out of range"
  | outOfTuple => "tuple index out of range"
  | noEntry name => shown name
  | noKey kind => "unhashable type: " ++ shown kind
  | noEntryItems position =>
    "cannot convert dictionary update sequence element #" ++ toString position ++ " to a sequence"
  | noPair position length =>
    "dictionary update sequence element #" ++ toString position ++ " has length " ++
      toString length ++ "; 2 is required"
  | noInteger base text =>
    "invalid literal for int() with base " ++ toString base ++ ": " ++
      String.ofList ((Text.quoted text.toList).take 200)
  | tooManyDigits count =>
    "Exceeds the limit (4300 digits) for integer string conversion: value has " ++ toString count ++
      " digits; use sys.set_int_max_str_digits() to increase the limit"
  | noFloat text => "could not convert string to float: " ++ shown text
  | emptyNumber => "string index out of range"
  | noCharacter => "chr() arg not in range(0x110000)"
  | hugeCode => "Python int too large to convert to C int"
  | noMoment fault => fault.message
  | noSuffix text => "Invalid suffix " ++ shown text
  | noFile path => "File not found: " ++ path
  | noDirectory path => "Directory not found: " ++ path
  | notADirectory path => "Not a directory: " ++ path
  | insideFile path => "[Errno 20] Not a directory: " ++ shown path
  | notAFile path => "[Errno 21] Is a directory: " ++ shown path
  | malformedJson problem line column offset =>
    problem ++ ": line " ++ toString line ++ " column " ++ toString column ++ " (char " ++
      toString offset ++ ")"
  | malformedYaml => ""
  | tooDeep => "maximum recursion depth exceeded"

/-- The name of the kind of failure. -/
def code : Failure → String
  | emptyCondition _ | unusableTerms .. => "MalformedConditionError"
  | unresolvedMarker _ => "UnresolvedMarkerError"
  | unbalancedTags .. => "UnbalancedPseudoTagsError"
  | markerCollision .. => "MarkerCollisionError"
  | unloadable _ | brokenModule .. => "ComponentLoadError"
  | unreadableConfig _ | configNoMapping _ | malformedVariable _ | invalidConfig _ => "ConfigError"
  | markersNoMapping _ | previewDataNoMapping _ => "HandlebarizeError"
  | raised kind _ => kind
  | mappingAsChild _ | closureAsChild _ | invalidType _ | samplesNoMapping .. | argumentNoText |
    noSequence _ | noName _ | noText _ | noJoin _ | noContainer _ | noPositions _ | noSpread _ |
    noPattern _ | bytesAmongTexts _ | notCallable _ | noKey _ | noEntryItems _ => "TypeError"
  | noMember .. => "AttributeError"
  | outOfList | outOfTuple | emptyNumber => "IndexError"
  | noEntry _ => "KeyError"
  | noInteger .. | tooManyDigits _ | noFloat _ | noCharacter | noMoment _ | noPair .. |
    noSuffix _ => "ValueError"
  | hugeCode => "OverflowError"
  | noFile _ | noDirectory _ => "FileNotFoundError"
  | notADirectory _ | insideFile _ => "NotADirectoryError"
  | notAFile _ => "IsADirectoryError"
  | malformedJson .. => "JSONDecodeError"
  | malformedYaml => "YAMLError"
  | tooDeep => "RecursionError"

/-- Whether a failure is one of this program itself. -/
def isOwn : Failure → Bool
  | emptyCondition _ | unusableTerms .. | unresolvedMarker _ | unbalancedTags .. |
    markerCollision .. | unloadable _ | brokenModule .. | unreadableConfig _ | configNoMapping _ |
    malformedVariable _ | invalidConfig _ | markersNoMapping _ | previewDataNoMapping _ => true
  | raised kind _ => kind == "HandlebarizeError"
  | _ => false

/-- Whether a failure is one of the file system. -/
def isOfFiles : Failure → Bool
  | noFile _ | noDirectory _ | notADirectory _ | insideFile _ | notAFile _ => true
  | _ => false

/-- Whether a failure is one of a value that has the right kind but not the right content. -/
def isOfValues : Failure → Bool
  | emptyCondition _ | unusableTerms .. | unreadableConfig _ | configNoMapping _ |
    malformedVariable _ | invalidConfig _ | malformedJson .. | noInteger .. | tooManyDigits _ |
    noFloat _ | noCharacter | noMoment _ | noPair .. | noSuffix _ => true
  | raised kind _ => kind == "ValueError"
  | _ => false

/-- An optional text as a value. -/
def optional : Option String → Value
  | some s => .str s
  | none => .null

/-- The facts that go with a failure. -/
def context : Failure → List (String × Value)
  | emptyCondition given => [("condition", given)]
  | unusableTerms condition terms =>
    [("condition", .str condition), ("terms", .list (terms.map .str))]
  | unresolvedMarker token => [("token", .str token)]
  | unbalancedTags source remaining =>
    [("source", optional source),
      ("remaining", .map (remaining.map fun (tag, n) => (.str tag, .int n)))]
  | markerCollision token bound new =>
    [("token", .str token), ("existing_path", .str bound), ("new_path", .str new)]
  | unloadable path | brokenModule path _ | unreadableConfig path | configNoMapping path |
    markersNoMapping path | previewDataNoMapping path => [("path", .str path)]
  | malformedVariable name => [("key", .str name)]
  | invalidConfig details => [("errors", .list (details.map .str))]
  | _ => []

end Failure

/-- Work goes on with the result and the state of the work before it. -/
theorem bind_apply {σ α β : Type} (x : ExceptT Failure (StateM σ) α)
    (f : α → ExceptT Failure (StateM σ) β) (s : σ) :
    (x >>= f) s =
      match x s with
      | (.ok a, s') => f a s'
      | (.error failure, s') => (.error failure, s') := by
  change (match x s with | (a, s) => ExceptT.bindCont f a s) = _
  rcases x s with ⟨a | a, s'⟩ <;> rfl

/-- What is made of the result of work leaves its failure and the state as they are. -/
theorem map_apply {σ α β : Type} (f : α → β) (x : ExceptT Failure (StateM σ) α) (s : σ) :
    (f <$> x) s = ((x s).1.map f, (x s).2) := by
  simp only [Functor.map, ExceptT.map, ExceptT.mk, StateT.bind, bind]
  rcases x s with ⟨a | a, s'⟩ <;> rfl

/-- Checks one after the other all pass if each of them does. -/
theorem forM_eq_ok_iff {α : Type} {check : α → Except Failure Unit} {l : List α} :
    l.forM check = .ok () ↔ ∀ a ∈ l, check a = .ok () := by
  induction l with
  | nil => simp [pure, Except.pure]
  | cons a l ih =>
    rw [List.forall_mem_cons, ← ih]
    change (do check a; l.forM check) = .ok () ↔ _
    cases check a <;> simp [bind, Except.bind]

/-- Checks one after the other fail as the first one of them that fails. -/
theorem exists_forM_eq_error {α : Type} {check : α → Except Failure Unit} {l : List α}
    (h : l.forM check ≠ .ok ()) :
    ∃ a ∈ l, ∃ failure, check a = .error failure ∧ l.forM check = .error failure := by
  induction l with
  | nil => exact absurd rfl h
  | cons a l ih =>
    change (do check a; l.forM check) ≠ .ok () at h
    change ∃ b ∈ a :: l, ∃ failure,
      check b = .error failure ∧ (do check a; l.forM check) = .error failure
    cases ha : check a with
    | error failure => exact ⟨a, List.mem_cons_self, failure, ha, rfl⟩
    | ok _ =>
      rw [ha] at h
      obtain ⟨b, hb, failure, hcheck, hrest⟩ := ih h
      exact ⟨b, List.mem_cons_of_mem a hb, failure, hcheck, hrest⟩

end Stencil
