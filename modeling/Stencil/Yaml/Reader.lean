import Stencil.Yaml.Node
import Stencil.Yaml.Scalar

/-!
# Reading YAML

The value of a text with one YAML document. A scalar that is not plain is text, unless a tag says
otherwise. The entries that a merge sign brings in come first, and the others of the mapping win over
them. A repeated key keeps its first place and takes the last value.

Values are made layer by layer: all that is wrong further out is found before what is wrong further in, and
in a layer the first comes first. So each fault is kept with its depth, and the outermost one counts.
-/

namespace Stencil.Yaml

/-! ### Types -/

/-- The type that the full name of a tag means. -/
def Kind.ofTag (tag : Text) : Kind :=
  match Text.after? standardBeginning tag with
  | some name => (Kind.names.lookup (String.ofList name)).getD .unknown
  | none => .unknown

/-- The tag that asks for the type that a node has without a tag; that of a scalar is the one that its text
shows. -/
def plainTag : Text := ['!']

/-- The type of a list or mapping with a tag. -/
def containerKind (usual : Kind) (tag : Option Text) : Kind :=
  match tag with
  | none => usual
  | some tag => if tag = plainTag then usual else Kind.ofTag tag

/-- The type of a node. -/
def Node.kind : Node → Kind
  | .scalar none text isPlain => if isPlain then .of text else .text
  | .scalar (some tag) text _ => if tag = plainTag then .of text else .ofTag tag
  | .list tag _ => containerKind .list tag
  | .map tag _ => containerKind .map tag

/-- Whether values of a type are made of those of other nodes. -/
def Kind.isContainer : Kind → Bool
  | .list | .map | .pairs | .set => true
  | _ => false

/-! ### Faults -/

/-- Something wrong in a document, and how far in it is found. -/
structure Fault where
  /-- The number of lists and mappings around it. -/
  depth : Nat
  /-- What it is. -/
  failure : Failure

/-- The outermost fault, of several the first. -/
def Fault.outermost? : List Fault → Option Fault
  | [] => none
  | fault :: rest =>
    match outermost? rest with
    | some other => if other.depth < fault.depth then some other else some fault
    | none => some fault

/-- Something that is made in spite of faults. -/
structure Made (α : Type) where
  /-- What is made. -/
  result : α
  /-- The faults, in order. -/
  faults : List Fault := []

/-- What is made if nothing is wrong. -/
def Made.toExcept {α : Type} (made : Made α) : Except Failure α :=
  match Fault.outermost? made.faults with
  | some fault => .error fault.failure
  | none => .ok made.result

/-- The value of a result at a depth. -/
def Made.ofResult (depth : Nat) : Except Failure Value → Made Value
  | .ok v => ⟨v, []⟩
  | .error failure => ⟨.null, [⟨depth, failure⟩]⟩

/-- The value of a type before anything is put into it. -/
def Kind.start : Kind → Value
  | .list | .pairs => .list []
  | .map => .map []
  | .set => .set []
  | _ => .null

/-- A value of a type that nothing can be put into, for what is inside is malformed. -/
def Made.malformed (kind : Kind) (depth : Nat) : Made Value :=
  ⟨kind.start, [⟨depth, .malformedYaml⟩]⟩

/-! ### Texts -/

mutual

/-- The text of a node: of a mapping, that of its default value. -/
def Node.text : Node → Except Failure Text
  | .scalar _ text _ => .ok text
  | .list _ _ => .error .malformedYaml
  | .map _ entries => defaultText entries

/-- The text of the default value among entries. -/
def defaultText : List (Node × Node) → Except Failure Text
  | [] => .error .malformedYaml
  | (key, node) :: rest => if key.kind = .default then node.text else defaultText rest

end

/-- The value of a node whose type is one of scalars. A day or moment has to be in a scalar. -/
def Node.scalarValue (kind : Kind) (node : Node) : Except Failure Value := do
  let text ← node.text
  match kind, node with
  | .time, .map _ _ => throw (.noText "list")
  | _, _ => kind.value text

/-! ### Values -/

/-- An entry of a mapping, with all that is wrong with it. -/
abbrev MadeEntry := Made (Value × Value)

/-- The entry of a key and a value at a depth. A value that is no key is refused before the value at it is
made. -/
def entryOf (depth : Nat) (key value : Made Value) : MadeEntry :=
  if key.result.unkeyed?.isSome then
    ⟨(key.result, value.result), key.faults ++ [⟨depth, .malformedYaml⟩]⟩
  else ⟨(key.result, value.result), key.faults ++ value.faults⟩

/-- What is made of the entries of a mapping. -/
structure Entries where
  /-- The faults of what is merged. -/
  faults : List Fault := []
  /-- The entries that are merged into the mapping. -/
  merged : List MadeEntry := []
  /-- The entries of the mapping itself. -/
  own : List MadeEntry := []

/-- All entries, those that are merged first. -/
def Entries.all (entries : Entries) : List MadeEntry := entries.merged ++ entries.own

/-- A mapping with an entry put in. All numbers that are none are one key. -/
def putEntry (m : Mapping) (entry : Value × Value) : Mapping :=
  if entry.1.isNaN && m.any fun old => old.1.isNaN then
    m.map fun old => if old.1.isNaN then (old.1, entry.2) else old
  else m.put entry.1 entry.2

/-- The mapping of entries. -/
def Entries.toMapping (entries : Entries) : Made Mapping :=
  ⟨(entries.all.map Made.result).foldl putEntry [],
    entries.faults ++ entries.all.flatMap Made.faults⟩

/-- The value of a mapping with a type: the mapping itself, or its keys. -/
def Entries.toValue (kind : Kind) (entries : Entries) : Made Value :=
  let made := entries.toMapping
  ⟨if kind = .set then .set (made.result.map Prod.fst) else .map made.result, made.faults⟩

mutual

/-- The value of a node at a depth, as one of a type. -/
def valueAs (kind : Kind) (depth : Nat) : Node → Made Value
  | .scalar tag text isPlain =>
    if kind.isContainer then .malformed kind (depth + 1)
    else .ofResult depth ((Node.scalar tag text isPlain).scalarValue kind)
  | .list tag items =>
    match kind with
    | .list =>
      let made := values (depth + 1) items
      ⟨.list made.result, made.faults⟩
    | .pairs =>
      let made := pairs (depth + 1) items
      ⟨.list made.result, made.faults⟩
    | .map | .set => .malformed kind (depth + 1)
    | _ => .ofResult depth ((Node.list tag items).scalarValue kind)
  | .map tag nodes =>
    match kind with
    | .map | .set => (entries (depth + 1) nodes).toValue kind
    | .list | .pairs => .malformed kind (depth + 1)
    | _ => .ofResult depth ((Node.map tag nodes).scalarValue kind)

/-- The values of nodes at a depth. -/
def values (depth : Nat) : List Node → Made (List Value)
  | [] => ⟨[], []⟩
  | node :: rest =>
    let here := valueAs node.kind depth node
    let others := values depth rest
    ⟨here.result :: others.result, here.faults ++ others.faults⟩

/-- The pairs that nodes at a depth stand for, each of them a mapping with one entry. -/
def pairs (depth : Nat) : List Node → Made (List Value)
  | [] => ⟨[], []⟩
  | .map _ [(key, node)] :: rest =>
    let k := valueAs key.kind depth key
    let v := valueAs node.kind depth node
    let others := pairs depth rest
    ⟨.tuple [k.result, v.result] :: others.result, k.faults ++ v.faults ++ others.faults⟩
  | _ :: _ => ⟨[], [⟨depth, .malformedYaml⟩]⟩

/-- The entries of a mapping at a depth. -/
def entries (depth : Nat) : List (Node × Node) → Entries
  | [] => {}
  | (key, node) :: rest =>
    let others := entries depth rest
    if key.kind = .merge then
      let brought := mergedEntries depth node
      { others with
        faults := brought.faults ++ others.faults
        merged := brought.result ++ others.merged }
    else
      let kind := if key.kind = .default then .text else key.kind
      let entry := entryOf depth (valueAs kind depth key) (valueAs node.kind depth node)
      { others with own := entry :: others.own }

/-- The entries that a node behind a merge sign brings in. -/
def mergedEntries (depth : Nat) : Node → Made (List MadeEntry)
  | .scalar .. => ⟨[], [⟨depth, .malformedYaml⟩]⟩
  | .list _ items => mappingEntries depth items
  | .map _ nodes =>
    let found := entries depth nodes
    ⟨found.all, found.faults⟩

/-- The entries of some mappings, those of the first mapping last. -/
def mappingEntries (depth : Nat) : List Node → Made (List MadeEntry)
  | [] => ⟨[], []⟩
  | .map _ nodes :: rest =>
    let found := entries depth nodes
    let others := mappingEntries depth rest
    ⟨others.result ++ found.all, found.faults ++ others.faults⟩
  | _ :: _ => ⟨[], [⟨depth, .malformedYaml⟩]⟩

end

/-- The value of a node. -/
def Node.value (node : Node) : Except Failure Value := (valueAs node.kind 0 node).toExcept

/-- Reads a document: nothing if it is empty. -/
def read (t : Text) : Except Failure Value := do
  match ← Node.ofText t with
  | none => pure .null
  | some node => node.value

/-- Without a fault something is made. -/
theorem Made.toExcept_of_faults_eq_nil {α : Type} {made : Made α} (h : made.faults = []) :
    made.toExcept = .ok made.result := by
  simp [toExcept, h, Fault.outermost?]

end Stencil.Yaml
