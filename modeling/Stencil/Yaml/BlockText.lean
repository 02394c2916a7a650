import Stencil.Yaml.Cursor

/-!
# Block scalars

A block scalar is a text in the lines below its sign, each further in than what holds it. Behind a bar the
lines stay as they are; behind an angle bracket two lines without space at their front are joined by a
space. A sign behind it says whether the line ends at the end stay, and a digit how far in the lines are.
-/

namespace Stencil.Yaml

/-- What to do with the line ends at the end. -/
inductive Chomping where
  /-- Keep the first one. -/
  | clip
  /-- Keep none. -/
  | strip
  /-- Keep all. -/
  | keep
  deriving DecidableEq, Repr

/-- What stands behind the sign of a block scalar. -/
structure BlockHeader where
  /-- What to do with the line ends at the end. -/
  chomping : Chomping := .clip
  /-- How much further in the lines are. -/
  increment : Option Nat := none

/-- The chomping that a sign asks for. -/
def chomping? : Char → Option Chomping
  | '+' => some .keep
  | '-' => some .strip
  | _ => none

/-- The increment that a digit asks for. -/
def increment? (c : Char) : Option Nat :=
  if '1' ≤ c && c ≤ '9' then some (c.toNat - 48) else none

/-- The header of a block scalar and the place behind it. -/
def blockHeader (c : Cursor) : BlockHeader × Cursor :=
  match c.rest with
  | x :: rest =>
    match chomping? x, increment? x with
    | some chomping, _ =>
      match rest.head?.bind increment? with
      | some n => (⟨chomping, some n⟩, c.advance 2)
      | none => (⟨chomping, none⟩, c.step)
    | none, some n =>
      match rest.head?.bind chomping? with
      | some chomping => (⟨chomping, some n⟩, c.advance 2)
      | none => (⟨.clip, some n⟩, c.step)
    | none, none => ({}, c)
  | [] => ({}, c)

/-- The line ends and spaces at a place: the line ends, the greatest column in them, and the place behind
them. -/
def blankLines : (bound : Nat) → Cursor → Text × Nat × Cursor
  | 0, c => ([], c.column, c)
  | bound + 1, c =>
    let behind := c.skipSpaces
    match behind.lineEnd? with
    | none => ([], behind.column, behind)
    | some (lineEnd, next) =>
      let (more, greatest, last) := blankLines bound next
      (lineEnd :: more, max behind.column greatest, last)

/-- The place behind the spaces up to a column. -/
def indentTo (indent : Nat) : (bound : Nat) → Cursor → Cursor
  | 0, c => c
  | bound + 1, c =>
    if c.column < indent && c.rest.head? == some ' ' then indentTo indent bound c.step else c

/-- The line ends at a place, each behind no more than the indentation, and the place behind them. -/
def blockBreaks (indent : Nat) : (bound : Nat) → Cursor → Text × Cursor
  | 0, c => ([], c)
  | bound + 1, c =>
    let behind := indentTo indent indent c
    match behind.lineEnd? with
    | none => ([], behind)
    | some (lineEnd, next) =>
      let (more, last) := blockBreaks indent bound next
      (lineEnd :: more, last)

/-- Whether a text begins with white space. -/
def startsBlank (t : Text) : Bool := t.head? == some ' ' || t.head? == some '\t'

/-- The lines of a block scalar behind some line ends, and the place behind them. -/
def blockLines (isFolded : Bool) (indent : Nat) (chomping : Chomping) :
    (bound : Nat) → (breaks : Text) → Cursor → Text × Cursor
  | 0, _, c => ([], c)
  | bound + 1, breaks, c =>
    let (line, behind) := c.span fun x => !isLineEnd x
    let (lineEnd, next) :=
      match behind.lineEnd? with
      | some (x, next) => ([x], next)
      | none => ([], behind)
    let (further, last) := blockBreaks indent (next.rest.length + 1) next
    if last.column = indent && !last.rest.isEmpty then
      let isJoined :=
        isFolded && lineEnd == ['\n'] && !startsBlank c.rest && !startsBlank last.rest
      let join := if isJoined then (if further.isEmpty then [' '] else []) else lineEnd
      let (more, final) := blockLines isFolded indent chomping bound further last
      (breaks ++ line ++ join ++ more, final)
    else
      let ending :=
        match chomping with
        | .strip => []
        | .clip => lineEnd
        | .keep => lineEnd ++ further
      (breaks ++ line ++ ending, last)

/-- A block scalar from its sign on, inside something at an indentation, and the place behind it. -/
def blockScalar (isFolded : Bool) (indent : Int) (c : Cursor) : Option (Text × Cursor) :=
  let (header, behind) := blockHeader c.step
  let least := max 1 (indent + 1).toNat
  let start? := if endsField behind.rest then behind.finishLine? else none
  start?.map fun start =>
    let bound := start.rest.length + 1
    let (column, breaks, first) :=
      match header.increment with
      | some n =>
        let column := least + n - 1
        let (breaks, first) := blockBreaks column bound start
        (column, breaks, first)
      | none =>
        let (breaks, greatest, first) := blankLines bound start
        (max least greatest, breaks, first)
    if first.column = column && !first.rest.isEmpty then
      blockLines isFolded column header.chomping bound breaks first
    else (if header.chomping = .keep then breaks else [], first)

end Stencil.Yaml
