import Stencil.Yaml.Cursor

/-!
# Plain scalars

A plain scalar is text without quotes. It ends at a comment, at a colon with a gap behind it, inside
brackets also at what separates items, and at a line that is not further in than what holds it. Over
several lines, one line end becomes a space and of several the first is dropped.
-/

namespace Stencil.Yaml

/-- Whether a plain scalar ends at a place. -/
def endsPlain (isInFlow : Bool) : Text → Bool
  | [] => true
  | c :: rest =>
    isGap c || (isInFlow && [',', '?', '[', ']', '\x7b', '\x7d'].contains c) ||
      (c == ':' && (endsWord rest ||
        (isInFlow && (rest.take 1).any [',', '[', ']', '\x7b', '\x7d'].contains)))

/-- The part of a plain scalar up to the next gap. -/
def plainWord (isInFlow : Bool) : Text → Text
  | [] => []
  | c :: rest => if endsPlain isInFlow (c :: rest) then [] else c :: plainWord isInFlow rest

/-- The line ends behind the first one; nothing if they lead to the end of the document. -/
def furtherBreaks : (bound : Nat) → Cursor → Option Text × Cursor
  | 0, c => (some [], c)
  | bound + 1, c =>
    match c.skipSpaces.lineEnd? with
    | none => (some [], c.skipSpaces)
    | some (lineEnd, next) =>
      if startsMarker next.rest then (none, next)
      else
        let (more, last) := furtherBreaks bound next
        (more.map (lineEnd :: ·), last)

/-- What a line end and the ones behind it are read as. -/
def folded (lineEnd : Char) (breaks : Text) : Text :=
  (if lineEnd != '\n' then [lineEnd] else if breaks.isEmpty then [' '] else []) ++ breaks

/-- The gap inside a plain scalar: the text it is read as, the place behind it, and whether it goes
over a line end. -/
def plainGap (c : Cursor) : Text × Cursor × Bool :=
  let (spaces, behind) := c.span (· == ' ')
  match behind.lineEnd? with
  | none => (spaces, behind, false)
  | some (lineEnd, next) =>
    if startsMarker next.rest then ([], next, true)
    else
      match furtherBreaks next.rest.length next with
      | (none, last) => ([], last, true)
      | (some breaks, last) => (folded lineEnd breaks, last, true)

/-- The rest of a plain scalar behind a gap, the place behind it, and whether the gap there goes over a
line end. -/
def plainFrom (isInFlow : Bool) (indent : Int) :
    (bound : Nat) → (gap : Text) → (isOver : Bool) → Cursor → Text × Cursor × Bool
  | 0, _, isOver, c => ([], c, isOver)
  | bound + 1, gap, isOver, c =>
    let word := if c.rest.head? == some '#' then [] else plainWord isInFlow c.rest
    if word.isEmpty then ([], c, isOver)
    else
      let (next, behind, isOver) := plainGap (c.advance word.length)
      if next.isEmpty || behind.rest.head? == some '#' || (!isInFlow && behind.column < indent) then
        (gap ++ word, behind, isOver)
      else
        let (more, last, isOver) := plainFrom isInFlow indent bound next isOver behind
        (gap ++ word ++ more, last, isOver)

/-- A plain scalar, the place behind it, and whether a line ends before that place. -/
def plainScalar (isInFlow : Bool) (indent : Int) (c : Cursor) : Text × Cursor × Bool :=
  plainFrom isInFlow indent (c.rest.length + 1) [] false c

end Stencil.Yaml
