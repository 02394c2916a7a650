import Stencil.Yaml.Plain
import Stencil.Text.Reference

/-!
# Quoted scalars

Between single quotes, two quotes stand for one. Between double quotes, a backslash begins an escape, and
at the end of a line it joins the lines. Elsewhere line ends are folded as in plain scalars, and the
spaces around them are dropped.
-/

namespace Stencil.Yaml

/-- The character that a letter behind a backslash stands for. -/
def escapes : List (Char × Char) :=
  [('0', '\x00'), ('a', '\x07'), ('b', '\x08'), ('t', '\t'), ('\t', '\t'), ('n', '\n'),
    ('v', '\x0b'), ('f', '\x0c'), ('r', '\r'), ('e', '\x1b'), (' ', ' '), ('"', '"'),
    ('\\', '\\'), ('/', '/'), ('N', '\x85'), ('_', '\xa0'), ('L', '\u2028'), ('P', '\u2029')]

/-- The number of digits behind a letter that begins a code. -/
def codeLengths : List (Char × Nat) := [('x', 2), ('u', 4), ('U', 8)]

/-- The greatest number that is looked at as the code of a character. -/
def greatestCode : Nat := Nat.pow 2 31 - 1

/-- The character with a code of some digits at the front of a text. -/
def codedChar (digits : Nat) (t : Text) : Except Failure Char :=
  let code := t.take digits
  let n := Text.hexNumber code
  if code.length < digits || code.any fun c => (Text.hexValue? c).isNone then
    .error .malformedYaml
  else if greatestCode < n then .error .hugeCode
  else if 0x10FFFF < n then .error .noCharacter
  else .ok (Char.ofNat n)

/-- The line ends at a place, with the spaces around them; nothing if they lead to the end of the
document. -/
def quotedBreaks : (bound : Nat) → Cursor → Option (Text × Cursor)
  | 0, c => some ([], c)
  | bound + 1, c =>
    if startsMarker c.rest then none
    else
      let behind := c.skip fun x => x == ' ' || x == '\t'
      match behind.lineEnd? with
      | none => some ([], behind)
      | some (lineEnd, next) =>
        (quotedBreaks bound next).map fun (more, last) => (lineEnd :: more, last)

/-- A gap inside quotes: the text it is read as, and the place behind it. -/
def quotedGap (c : Cursor) : Option (Text × Cursor) :=
  let (spaces, behind) := c.span fun x => x == ' ' || x == '\t'
  match behind.lineEnd? with
  | some (lineEnd, next) =>
    (quotedBreaks (next.rest.length + 1) next).map fun (breaks, last) =>
      (folded lineEnd breaks, last)
  | none => if behind.rest.isEmpty then none else some (spaces, behind)

/-- An escape behind its backslash: the text it stands for, and the place behind it. -/
def escape (c : Cursor) : Except Failure (Text × Cursor) :=
  match c.rest with
  | [] => .error .malformedYaml
  | x :: rest =>
    match escapes.lookup x, codeLengths.lookup x with
    | some y, _ => .ok ([y], c.step)
    | none, some digits => (codedChar digits rest).map fun y => ([y], c.advance (digits + 1))
    | none, none =>
      needed (c.lineEnd?.bind fun (_, next) => quotedBreaks (next.rest.length + 1) next)

/-- The text up to the closing quote, and the place behind it. -/
def quotedFrom (isDouble : Bool) : (bound : Nat) → Cursor → Except Failure (Text × Cursor)
  | 0, _ => .error .malformedYaml
  | bound + 1, c =>
    let goOn (found : Text × Cursor) : Except Failure (Text × Cursor) :=
      (quotedFrom isDouble bound found.2).map fun (more, last) => (found.1 ++ more, last)
    match c.rest with
    | [] => .error .malformedYaml
    | '\'' :: rest =>
      if isDouble then goOn (['\''], c.step)
      else if rest.head? == some '\'' then goOn (['\''], c.advance 2)
      else .ok ([], c.step)
    | '"' :: _ => if isDouble then .ok ([], c.step) else goOn (['"'], c.step)
    | '\\' :: _ => if isDouble then (escape c.step).bind goOn else goOn (['\\'], c.step)
    | x :: _ => if isGap x then (needed (quotedGap c)).bind goOn else goOn ([x], c.step)

/-- A quoted scalar from its opening quote on, and the place behind it. -/
def quotedScalar (isDouble : Bool) (c : Cursor) : Except Failure (Text × Cursor) :=
  quotedFrom isDouble (c.rest.length + 1) c.step

end Stencil.Yaml
