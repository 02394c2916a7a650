import Stencil.Yaml.Token

/-!
# Nodes of a YAML document

The tokens of a document make up one node: a scalar, a list or a mapping, each with the full name of the tag
that was written before it. A name stands for the node that bears it, which comes before; no name is given
twice. A place where a node is left out holds an empty plain scalar.

A document begins with its first node, or with a line of hyphens behind the directives. It may be followed by
lines of dots, and by nothing else.
-/

namespace Stencil.Yaml

/-- A part of a document. -/
inductive Node where
  /-- A scalar; a plain one has the type that its text shows. -/
  | scalar (tag : Option Text) (text : Text) (isPlain : Bool)
  /-- A list. -/
  | list (tag : Option Text) (items : List Node)
  /-- A mapping. -/
  | map (tag : Option Text) (entries : List (Node × Node))

/-- What the full names of the standard types begin with. -/
def standardBeginning : Text := "tag:yaml.org,2002:".toList

/-- What the handles stand for that need no directive. -/
def standardHandles : List (Text × Text) := [(['!'], ['!']), (['!', '!'], standardBeginning)]

namespace Node

/-- A node that is left out. -/
def empty : Node := .scalar none [] true

/-- What has been read of a document. -/
structure Reading where
  /-- The tokens that are left, and why there are no more. -/
  left : Tokens
  /-- The names that are given. -/
  names : List Text := []
  /-- The nodes that have a name. -/
  named : List (Text × Node) := []
  /-- What the handles stand for that directives speak of. -/
  handles : List (Text × Text) := []

/-- Work on the tokens of a document that may find it malformed. -/
abbrev Parse := StateT Reading (Except Failure)

/-- The document is malformed. -/
def malformed {α : Type} : Parse α := throw .malformedYaml

/-- The next token, which stays; nothing at the end. -/
def peek : Parse (Option Token) := fun r =>
  match r.left.tokens, r.left.failure with
  | [], some failure => .error failure
  | tokens, _ => .ok (tokens.head?, r)

/-- Takes the next token. -/
def advance : Parse Unit := fun r =>
  .ok ((), { r with left := ⟨r.left.tokens.tail, r.left.failure⟩ })

/-- Takes the next token, which must be a given one. -/
def expect (t : Token) : Parse Unit := do
  if (← peek) == some t then advance else malformed

/-- Takes the next token if it is a given one. -/
def accept (t : Token) : Parse Bool := do
  if (← peek) == some t then
    advance
    pure true
  else pure false

/-- Whether the next token is one of some, or there is none. -/
def atOneOf (ts : List Token) : Parse Bool := do
  match ← peek with
  | some t => pure (ts.contains t)
  | none => pure true

/-- What stands before a node. -/
structure Marks where
  /-- Its name. -/
  name : Option Text := none
  /-- Its tag. -/
  tag : Option Text := none

/-- Whether there are marks. -/
def Marks.isSome (m : Marks) : Bool := m.name.isSome || m.tag.isSome

/-- The full name of a tag. -/
def fullName (tag : Tag) : Parse Text := fun r =>
  match tag.handle with
  | none => .ok (tag.rest, r)
  | some handle =>
    match (r.handles.lookup handle).or (standardHandles.lookup handle) with
    | some beginning => .ok (beginning ++ tag.rest, r)
    | none => .error .malformedYaml

/-- Takes the next token if it is a name. -/
def takeName : Parse (Option Text) := do
  match ← peek with
  | some (.anchor name) =>
    advance
    pure (some name)
  | _ => pure none

/-- Takes the next token if it is a tag. -/
def takeTag : Parse (Option Tag) := do
  match ← peek with
  | some (.tag tag) =>
    advance
    pure (some tag)
  | _ => pure none

/-- The name and the tag before a node, in any order. -/
def marks : Parse Marks := do
  let before ← takeName
  let tag ← takeTag
  let name ← if before.isNone && tag.isSome then takeName else pure before
  pure ⟨name, ← tag.mapM fullName⟩

/-- Claims the name among marks, which must not be given already. -/
def claimName (m : Marks) : Parse Unit := fun r =>
  match m.name with
  | none => .ok ((), r)
  | some name =>
    if r.names.contains name then .error .malformedYaml
    else .ok ((), { r with names := name :: r.names })

/-- Gives a node its name. -/
def giveName (m : Marks) (node : Node) : Parse Node := fun r =>
  .ok (node, { r with named := (m.name.map fun name => (name, node)).toList ++ r.named })

/-- The node of a name. -/
def named (name : Text) : Parse Node := fun r =>
  (needed (r.named.lookup name)).map fun node => (node, r)

/-- An empty scalar behind marks, of which there must be some. -/
def markedEmpty (m : Marks) : Parse Node :=
  if m.isSome then giveName m (.scalar m.tag [] m.tag.isNone) else malformed

/-- Where a node is read: what kinds of lists and mappings may begin. -/
inductive Place where
  /-- In lines. -/
  | block
  /-- In lines, where items may stand as far out as the key. -/
  | blockOrItems
  /-- In brackets. -/
  | flow
  deriving DecidableEq, Repr

mutual

/-- A node. -/
def parse (place : Place) : (bound : Nat) → Parse Node
  | 0 => malformed
  | bound + 1 => do
    match ← peek with
    | some (.alias name) =>
      advance
      named name
    | _ => parseMarked place (← marks) bound

/-- A node behind its marks. -/
def parseMarked (place : Place) (m : Marks) : (bound : Nat) → Parse Node
  | 0 => malformed
  | bound + 1 => do
    let next ← peek
    claimName m
    match next with
    | some (.scalar text isPlain) =>
      advance
      giveName m (.scalar m.tag text isPlain)
    | some .flowListStart =>
      advance
      giveName m (.list m.tag (← flowItems true bound))
    | some .flowMapStart =>
      advance
      giveName m (.map m.tag (← flowEntries true bound))
    | some .item =>
      if place = .blockOrItems then giveName m (.list m.tag (← looseItems bound)) else markedEmpty m
    | some .blockListStart =>
      if place = .flow then markedEmpty m
      else
        advance
        giveName m (.list m.tag (← blockItems bound))
    | some .blockMapStart =>
      if place = .flow then markedEmpty m
      else
        advance
        giveName m (.map m.tag (← blockEntries bound))
    | _ => markedEmpty m

/-- A node, or an empty one before some tokens. -/
def parseUnless (place : Place) (ends : List Token) : (bound : Nat) → Parse Node
  | 0 => malformed
  | bound + 1 => do
    if ← atOneOf ends then pure empty else parse place bound

/-- The items of a list in lines. -/
def blockItems : (bound : Nat) → Parse (List Node)
  | 0 => malformed
  | bound + 1 => do
    if ← accept .item then
      let node ← parseUnless .block [.item, .blockEnd] bound
      pure (node :: (← blockItems bound))
    else
      expect .blockEnd
      pure []

/-- The items of a list that is as far out as its key. -/
def looseItems : (bound : Nat) → Parse (List Node)
  | 0 => malformed
  | bound + 1 => do
    if ← accept .item then
      let node ← parseUnless .block [.item, .key, .value, .blockEnd] bound
      pure (node :: (← looseItems bound))
    else pure []

/-- The entries of a mapping in lines. -/
def blockEntries : (bound : Nat) → Parse (List (Node × Node))
  | 0 => malformed
  | bound + 1 => do
    if ← accept .key then
      let key ← parseUnless .blockOrItems [.key, .value, .blockEnd] bound
      let value ←
        if ← accept .value then parseUnless .blockOrItems [.key, .value, .blockEnd] bound
        else pure empty
      pure ((key, value) :: (← blockEntries bound))
    else
      expect .blockEnd
      pure []

/-- The value behind a key in brackets. -/
def flowValue (close : Token) : (bound : Nat) → Parse Node
  | 0 => malformed
  | bound + 1 => do
    if ← accept .value then parseUnless .flow [.comma, close] bound else pure empty

/-- The items of a list in brackets. -/
def flowItems (isFirst : Bool) : (bound : Nat) → Parse (List Node)
  | 0 => malformed
  | bound + 1 => do
    if ← accept .flowListEnd then return []
    unless isFirst do expect .comma
    if ← accept .flowListEnd then return []
    let node ←
      if ← accept .key then do
        let key ← parseUnless .flow [.value, .comma, .flowListEnd] bound
        let value ← flowValue .flowListEnd bound
        pure (.map none [(key, value)])
      else parse .flow bound
    pure (node :: (← flowItems false bound))

/-- The entries of a mapping in braces. -/
def flowEntries (isFirst : Bool) : (bound : Nat) → Parse (List (Node × Node))
  | 0 => malformed
  | bound + 1 => do
    if ← accept .flowMapEnd then return []
    unless isFirst do expect .comma
    if ← accept .flowMapEnd then return []
    let entry ←
      if ← accept .key then do
        let key ← parseUnless .flow [.value, .comma, .flowMapEnd] bound
        let value ← flowValue .flowMapEnd bound
        pure (key, value)
      else do
        let key ← parse .flow bound
        pure (key, empty)
    pure (entry :: (← flowEntries false bound))

end

/-! ### Documents -/

/-- Takes the directives before a document, of which one may be about the version. -/
def directives : (bound : Nat) → (hasVersion : Bool) → Parse Unit
  | 0, _ => malformed
  | bound + 1, hasVersion => do
    match ← peek with
    | some (.directive content) =>
      advance
      match content with
      | .version major => if hasVersion || major ≠ 1 then malformed else directives bound true
      | .handle handle beginning =>
        let handles := (← get).handles
        if (handles.lookup handle).isSome then malformed
        modify fun r => { r with handles := (handle, beginning) :: handles }
        directives bound hasVersion
      | .other => directives bound hasVersion
    | _ => pure ()

/-- The node of a document behind its first line, which may be left out. -/
def content (bound : Nat) : Parse Node := do
  match ← peek with
  | none | some .documentStart | some .documentEnd | some (.directive _) => pure empty
  | some _ => parse .block bound

/-- The node of a document, if there is one. -/
def document (bound : Nat) : Parse (Option Node) := do
  match ← peek with
  | none => pure none
  | some .documentStart | some (.directive _) =>
    directives bound false
    expect .documentStart
    some <$> content bound
  | some _ => some <$> parse .block bound

/-- Takes the lines of dots behind a document, and refuses anything else. -/
def finish : (bound : Nat) → Parse Unit
  | 0 => malformed
  | bound + 1 => do
    match ← peek with
    | none => pure ()
    | some .documentEnd =>
      advance
      finish bound
    | some _ => malformed

/-- The node of a text with one document, if there is one. -/
def ofText (t : Text) : Except Failure (Option Node) := do
  let tokens := Tokens.ofText t
  let bound := 8 * tokens.tokens.length + 8
  let read : Parse (Option Node) := do
    let node ← document bound
    finish bound
    pure node
  (read.run { left := tokens }).map Prod.fst

end Node

end Stencil.Yaml
