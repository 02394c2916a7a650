import Stencil.Failure

/-!
# Places in a YAML document

A cursor is a place in a document: the text from there on, and the line, the column and the offset at
which it is. The end of a document ends a line and counts as white space.

Five line ends are known; two of them, the line and paragraph separators, are kept in folded text and
the others become line feeds.
-/

namespace Stencil.Yaml

/-- What is found, or else the document is malformed. -/
def needed {α : Type} : Option α → Except Failure α
  | some a => .ok a
  | none => .error .malformedYaml

/-- A place in a document. -/
structure Cursor where
  /-- The text from there on. -/
  rest : Text
  /-- The number of line ends before it. -/
  line : Nat := 0
  /-- The number of characters before it on its line. -/
  column : Nat := 0
  /-- The number of characters before it. -/
  offset : Nat := 0

/-- A character that ends a line. -/
def isLineEnd (c : Char) : Bool :=
  c == '\n' || c == '\r' || c == '\x85' || c == '\u2028' || c == '\u2029'

/-- A character that ends a word: a space, a tab or the end of a line. -/
def isGap (c : Char) : Bool := c == ' ' || c == '\t' || isLineEnd c

/-- Whether a text is at the end of a line or a document. -/
def endsLine : Text → Bool
  | [] => true
  | c :: _ => isLineEnd c

/-- Whether a text is at the end of a word. -/
def endsWord : Text → Bool
  | [] => true
  | c :: _ => isGap c

/-- Whether a text is at the end of a word, a tab not being one. -/
def endsField : Text → Bool
  | '\t' :: _ => false
  | t => endsWord t

/-- Whether a text begins with the line that separates documents, or the one that ends one. -/
def startsMarker (t : Text) : Bool :=
  (t.take 3 == ['-', '-', '-'] || t.take 3 == ['.', '.', '.']) && endsWord (t.drop 3)

namespace Cursor

/-- The place behind the next character. -/
def step (c : Cursor) : Cursor :=
  match c.rest with
  | [] => c
  | x :: rest =>
    let offset := c.offset + 1
    if x == '\r' && rest.head? == some '\n' then ⟨rest, c.line, c.column + 1, offset⟩
    else if isLineEnd x then ⟨rest, c.line + 1, 0, offset⟩
    else if x == '\ufeff' then ⟨rest, c.line, c.column, offset⟩
    else ⟨rest, c.line, c.column + 1, offset⟩

/-- The place some characters further on. -/
def advance (c : Cursor) : Nat → Cursor
  | 0 => c
  | n + 1 => c.step.advance n

/-- The characters that pass a test, and the place behind them. -/
def span (p : Char → Bool) (c : Cursor) : Text × Cursor :=
  let taken := c.rest.takeWhile p
  (taken, c.advance taken.length)

/-- The place behind the characters that pass a test. -/
def skip (p : Char → Bool) (c : Cursor) : Cursor := (c.span p).2

/-- The place behind the spaces. -/
def skipSpaces (c : Cursor) : Cursor := c.skip (· == ' ')

/-- The line end that a line end at a place is read as, and the place behind it. -/
def lineEnd? (c : Cursor) : Option (Char × Cursor) :=
  match c.rest with
  | '\r' :: '\n' :: _ => some ('\n', c.advance 2)
  | x :: _ =>
    if x == '\u2028' || x == '\u2029' then some (x, c.step)
    else if isLineEnd x then some ('\n', c.step)
    else none
  | [] => none

/-- The place behind a comment, if there is one. -/
def skipComment (c : Cursor) : Cursor :=
  if c.rest.head? == some '#' then c.skip fun x => !isLineEnd x else c

/-- The place behind what may follow on a line: spaces and a comment, up to the end of the line. -/
def finishLine? (c : Cursor) : Option Cursor :=
  let last := c.skipSpaces.skipComment
  if endsLine last.rest then some ((last.lineEnd?.map Prod.snd).getD last) else none

end Cursor

end Stencil.Yaml
