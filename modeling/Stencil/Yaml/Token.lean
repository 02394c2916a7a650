import Stencil.Yaml.BlockText
import Stencil.Yaml.Quoted
import Stencil.Yaml.Tag

/-!
# Tokens of a YAML document

A document is cut into tokens. The tokens that open and close blocks stand for indentation: `indents`
holds the columns of the open blocks, and a line further out closes those that are further in.

Whether a scalar is a key is only known at the colon behind it. So the place of what may be a key is
remembered, and the token that says so is put there when the colon comes: on the same line, and no more
than 1024 characters on.

Where a document cannot be cut further, the tokens up to there stand together with the failure: whoever
reads them may find something wrong before.
-/

namespace Stencil.Yaml

/-- A token. -/
inductive Token where
  /-- A line that begins with a percent sign. -/
  | directive (content : Directive)
  /-- The line that begins a document. -/
  | documentStart
  /-- The line that ends a document. -/
  | documentEnd
  /-- The beginning of a list in lines. -/
  | blockListStart
  /-- The beginning of a mapping in lines. -/
  | blockMapStart
  /-- The end of a list or mapping in lines. -/
  | blockEnd
  /-- An opening bracket. -/
  | flowListStart
  /-- A closing bracket. -/
  | flowListEnd
  /-- An opening brace. -/
  | flowMapStart
  /-- A closing brace. -/
  | flowMapEnd
  /-- The dash of an item. -/
  | item
  /-- A comma. -/
  | comma
  /-- The beginning of a key. -/
  | key
  /-- The colon before a value. -/
  | value
  /-- A name for the node that follows. -/
  | anchor (name : Text)
  /-- The node of a name. -/
  | alias (name : Text)
  /-- The type of the node that follows. -/
  | tag (content : Tag)
  /-- A scalar. -/
  | scalar (text : Text) (isPlain : Bool)
  deriving DecidableEq, Repr

/-- What may turn out to be a key. -/
structure PossibleKey where
  /-- The number of tokens before it. -/
  index : Nat
  /-- Whether it can be nothing else. -/
  isRequired : Bool
  /-- Where it begins. -/
  start : Cursor

/-- How far a document has been cut into tokens. -/
structure Scan where
  /-- The place. -/
  cursor : Cursor
  /-- The tokens so far, last one first. -/
  tokens : List Token := []
  /-- The column of the innermost block. -/
  indent : Int := -1
  /-- The columns of the blocks around it. -/
  indents : List Int := []
  /-- The number of open brackets and braces. -/
  depth : Nat := 0
  /-- Whether a key may begin here. -/
  mayStartKey : Bool := true
  /-- What may turn out to be a key, at each depth. -/
  keys : List (Nat × PossibleKey) := []

namespace Scan

/-- Whether a place is inside brackets or braces. -/
def isInFlow (s : Scan) : Bool := 0 < s.depth

/-- The column of the place. -/
def column (s : Scan) : Int := s.cursor.column

/-- Adds a token. -/
def push (s : Scan) (t : Token) : Scan := { s with tokens := t :: s.tokens }

/-- Puts a token behind the first ones. -/
def insertAt (s : Scan) (index : Nat) (t : Token) : Scan :=
  let later := s.tokens.length - index
  { s with tokens := s.tokens.take later ++ t :: s.tokens.drop later }

/-! ### Keys -/

/-- Gives up what may have been a key at this depth. -/
def dropKey (s : Scan) : Except Failure Scan :=
  match s.keys.lookup s.depth with
  | some key =>
    if key.isRequired then .error .malformedYaml
    else .ok { s with keys := s.keys.filter fun k => k.1 != s.depth }
  | none => .ok s

/-- Whether a key can still end at the place. -/
def isFresh (s : Scan) (key : PossibleKey) : Bool :=
  key.start.line = s.cursor.line && s.cursor.offset - key.start.offset ≤ 1024

/-- Gives up what cannot be a key any more. -/
def dropStaleKeys (s : Scan) : Except Failure Scan :=
  if s.keys.any fun k => !s.isFresh k.2 && k.2.isRequired then .error .malformedYaml
  else .ok { s with keys := s.keys.filter fun k => s.isFresh k.2 }

/-- Remembers that a key may begin here. -/
def noteKey (s : Scan) : Except Failure Scan :=
  if s.mayStartKey then
    let isRequired := !s.isInFlow && s.indent = s.column
    s.dropKey.map fun s =>
      { s with keys := (s.depth, ⟨s.tokens.length, isRequired, s.cursor⟩) :: s.keys }
  else .ok s

/-! ### Blocks -/

/-- Closes the blocks that are further in than a column. -/
def closeBlocksTo (column : Int) : List Int → Scan → Scan
  | [], s => s
  | outer :: rest, s =>
    if column < s.indent then
      closeBlocksTo column rest { s.push .blockEnd with indent := outer, indents := rest }
    else s

/-- Closes the blocks that are further in than a column, outside brackets. -/
def closeBlocks (s : Scan) (column : Int) : Scan :=
  if s.isInFlow then s else closeBlocksTo column s.indents s

/-- Whether a block at a column would be further in than the innermost one. -/
def opensBlock (s : Scan) (column : Int) : Bool := !s.isInFlow && s.indent < column

/-- Makes a column the innermost one, if it is further in. -/
def openBlock (s : Scan) (column : Int) : Scan :=
  if s.opensBlock column then { s with indent := column, indents := s.indent :: s.indents } else s

/-- Opens a block at the place, if it is further in, with its token. -/
def openHere (s : Scan) (start : Token) : Scan :=
  if s.opensBlock s.column then (s.push start).openBlock s.column else s

/-! ### Single tokens -/

/-- Takes some characters as a token. -/
def take (s : Scan) (n : Nat) (t : Token) : Scan :=
  { s.push t with cursor := s.cursor.advance n }

/-- The end of all blocks. -/
def closeAll (s : Scan) : Except Failure Scan :=
  (s.closeBlocks (-1)).dropKey.map fun s => { s with mayStartKey := false }

/-- A line that begins or ends a document. -/
def takeMarker (s : Scan) (t : Token) : Except Failure Scan := s.closeAll.map fun s => s.take 3 t

/-- A directive, up to the end of its line. -/
def takeDirective (s : Scan) : Except Failure Scan := do
  let s ← s.closeAll
  let (found, behind) ← directive s.cursor
  pure { s.push (.directive found) with cursor := behind }

/-- An opening bracket or brace. -/
def takeOpening (s : Scan) (t : Token) : Except Failure Scan :=
  s.noteKey.map fun s => { s.take 1 t with depth := s.depth + 1, mayStartKey := true }

/-- A closing bracket or brace. -/
def takeClosing (s : Scan) (t : Token) : Except Failure Scan :=
  if s.depth = 0 then .error .malformedYaml
  else
    s.dropKey.map fun s => { s.take 1 t with depth := s.depth - 1, mayStartKey := false }

/-- A comma. -/
def takeComma (s : Scan) : Except Failure Scan :=
  s.dropKey.map fun s => { s.take 1 .comma with mayStartKey := true }

/-- The dash of an item. -/
def takeItem (s : Scan) : Except Failure Scan :=
  if !s.isInFlow && !s.mayStartKey then .error .malformedYaml
  else
    (s.openHere .blockListStart).dropKey.map fun s =>
      { s.take 1 .item with mayStartKey := true }

/-- The question mark of a key. -/
def takeKey (s : Scan) : Except Failure Scan :=
  if !s.isInFlow && !s.mayStartKey then .error .malformedYaml
  else
    (s.openHere .blockMapStart).dropKey.map fun s =>
      { s.take 1 .key with mayStartKey := !s.isInFlow }

/-- The colon of a value. -/
def takeValue (s : Scan) : Except Failure Scan :=
  match s.keys.lookup s.depth with
  | some key =>
    let s := { s with keys := s.keys.filter fun k => k.1 != s.depth }.insertAt key.index .key
    let s :=
      if s.opensBlock key.start.column then
        (s.insertAt key.index .blockMapStart).openBlock key.start.column
      else s
    .ok { s.take 1 .value with mayStartKey := false }
  | none =>
    if !s.isInFlow && !s.mayStartKey then .error .malformedYaml
    else
      (s.openHere .blockMapStart).dropKey.map fun s =>
        { s.take 1 .value with mayStartKey := !s.isInFlow }

/-- Whether a name may end at a place. -/
def endsName (t : Text) : Bool :=
  endsWord t || (t.take 1).any ['?', ':', ',', ']', '\x7d', '%', '@', '\x60'].contains

/-- A name behind its sign. -/
def takeName (s : Scan) (token : Text → Token) : Except Failure Scan := do
  let s ← s.noteKey
  let (name, behind) := s.cursor.step.span isNameChar
  if name.isEmpty || !endsName behind.rest then throw .malformedYaml
  pure { s.push (token name) with cursor := behind, mayStartKey := false }

/-- A tag. -/
def takeTag (s : Scan) : Except Failure Scan := do
  let s ← s.noteKey
  let (found, behind) ← needed (tag? s.cursor)
  pure { s.push (.tag found) with cursor := behind, mayStartKey := false }

/-- A block scalar. -/
def takeBlock (s : Scan) (isFolded : Bool) : Except Failure Scan := do
  let s ← s.dropKey
  let (text, behind) ← needed (blockScalar isFolded s.indent s.cursor)
  pure { s.push (.scalar text false) with cursor := behind, mayStartKey := true }

/-- A quoted scalar. -/
def takeQuoted (s : Scan) (isDouble : Bool) : Except Failure Scan := do
  let s ← s.noteKey
  let (text, behind) ← quotedScalar isDouble s.cursor
  pure { s.push (.scalar text false) with cursor := behind, mayStartKey := false }

/-- A plain scalar. -/
def takePlain (s : Scan) : Except Failure Scan :=
  s.noteKey.map fun s =>
    let (text, behind, isOver) := plainScalar s.isInFlow (s.indent + 1) s.cursor
    { s.push (.scalar text true) with cursor := behind, mayStartKey := isOver }

/-! ### The whole document -/

/-- Whether a plain scalar may begin with a character that has a text behind it. -/
def startsPlain (isInFlow : Bool) (c : Char) (rest : Text) : Bool :=
  !(isGap c || "-?:,[]\x7b\x7d#&*!|>'\"%@\x60".toList.contains c) ||
    (!endsWord rest && (c == '-' || (!isInFlow && (c == '?' || c == ':'))))

/-- The place of the next token: behind spaces, comments and line ends. -/
def skipToToken : (bound : Nat) → Scan → Scan
  | 0, s => s
  | bound + 1, s =>
    let behind := s.cursor.skipSpaces.skipComment
    match behind.lineEnd? with
    | some (_, next) =>
      skipToToken bound { s with cursor := next, mayStartKey := s.mayStartKey || !s.isInFlow }
    | none => { s with cursor := behind }

/-- The next token, at a character with a text behind it. -/
def takeToken (s : Scan) (c : Char) (rest : Text) : Except Failure Scan :=
  let isLineStart := s.cursor.column = 0
  let isFlow := s.isInFlow
  if c == '%' && isLineStart then s.takeDirective
  else if isLineStart && startsMarker s.cursor.rest then
    s.takeMarker (if c == '-' then .documentStart else .documentEnd)
  else if c == '[' then s.takeOpening .flowListStart
  else if c == '\x7b' then s.takeOpening .flowMapStart
  else if c == ']' then s.takeClosing .flowListEnd
  else if c == '\x7d' then s.takeClosing .flowMapEnd
  else if c == ',' then s.takeComma
  else if c == '-' && endsWord rest then s.takeItem
  else if c == '?' && (isFlow || endsWord rest) then s.takeKey
  else if c == ':' && (isFlow || endsWord rest) then s.takeValue
  else if c == '*' then s.takeName .alias
  else if c == '&' then s.takeName .anchor
  else if c == '!' then s.takeTag
  else if c == '|' && !isFlow then s.takeBlock false
  else if c == '>' && !isFlow then s.takeBlock true
  else if c == '\'' then s.takeQuoted false
  else if c == '"' then s.takeQuoted true
  else if startsPlain isFlow c rest then s.takePlain
  else .error .malformedYaml

/-- How far the document is cut behind the next token, and whether that is its end. -/
def next (s : Scan) : Except Failure (Scan × Bool) := do
  let s ← (skipToToken (s.cursor.rest.length + 1) s).dropStaleKeys
  let s := s.closeBlocks s.column
  match s.cursor.rest with
  | [] => pure (← s.closeAll, true)
  | c :: rest => pure (← s.takeToken c rest, false)

/-- The tokens that are certain: those before whatever may turn out to be a key. -/
def certain (s : Scan) : List Token :=
  let indices := (s.keys.filter fun k => s.isFresh k.2).map fun k => k.2.index
  s.tokens.reverse.take (indices.foldl min s.tokens.length)

end Scan

/-- The tokens of a document, and why there are no more if it is cut short. -/
structure Tokens where
  /-- The tokens. -/
  tokens : List Token
  /-- Why there are no more. -/
  failure : Option Failure

/-- The tokens of the rest of a document, together with those before. -/
def Scan.finish : (bound : Nat) → Scan → Tokens
  | 0, s => ⟨s.certain, some .malformedYaml⟩
  | bound + 1, s =>
    match s.next with
    | .error failure => ⟨s.certain, some failure⟩
    | .ok (s, isEnd) => if isEnd then ⟨s.tokens.reverse, none⟩ else s.finish bound

/-- A character that a document may hold. -/
def isAllowed (c : Char) : Bool :=
  let n := c.toNat
  n == 9 || n == 10 || n == 13 || (0x20 ≤ n && n ≤ 0x7E) || n == 0x85 ||
    (0xA0 ≤ n && n ≤ 0xD7FF) || (0xE000 ≤ n && n ≤ 0xFFFD) || 0x10000 ≤ n

/-- A document without a mark of its byte order. -/
def withoutByteOrderMark : Text → Text
  | '\ufeff' :: rest => rest
  | t => t

/-- The tokens of a document. -/
def Tokens.ofText (t : Text) : Tokens :=
  if t.all isAllowed then
    let start : Scan := { cursor := ⟨withoutByteOrderMark t, 0, 0, 0⟩ }
    start.finish (t.length + 2)
  else ⟨[], some .malformedYaml⟩

end Stencil.Yaml
