import Stencil.Decimal.Literal
import Stencil.Yaml.Cursor

/-!
# Tags and directives

A tag names the type of a node: in full between angle brackets, or by a handle and the rest of the name.
A handle is an exclamation mark, two of them, or two with a name between them. In the rest, a percent sign
and two digits write a byte.

A directive is a line before a document, which begins with a percent sign. One says which version of YAML the
document is written in, and one what a handle stands for; others count for nothing.
-/

namespace Stencil.Yaml

/-- A tag as it is written. -/
structure Tag where
  /-- The handle, if there is one. -/
  handle : Option Text
  /-- The rest of the name. -/
  rest : Text
  deriving DecidableEq, Repr

/-- What a line before a document says. -/
inductive Directive where
  /-- The version is one after this point. -/
  | version (major : Nat)
  /-- A handle stands for the beginning of a name. -/
  | handle (handle beginning : Text)
  /-- Something else. -/
  | other
  deriving DecidableEq, Repr

/-- A character of a name. -/
def isNameChar (c : Char) : Bool := Text.isAsciiLetter c || Text.isAsciiDigit c || c == '-' || c == '_'

/-- A character of a tag that stands for itself. -/
def isTagChar (c : Char) : Bool :=
  Text.isAsciiLetter c || Text.isAsciiDigit c || "-;/?:@&=+$,_.!~*'()[]".toList.contains c

/-- The bytes that percent signs with two digits write at the front of a text. -/
def percentBytes : Text → List UInt8
  | '%' :: a :: b :: rest =>
    match Text.hexValue? a, Text.hexValue? b with
    | some x, some y => UInt8.ofNat (16 * x + y) :: percentBytes rest
    | _, _ => []
  | _ => []

/-- The name at the front of a text, and the number of its characters. -/
def tagTextFrom : (bound : Nat) → Text → Option (Text × Nat)
  | 0, _ => none
  | bound + 1, t =>
    let bytes := percentBytes t
    let rest := t.drop (3 * bytes.length)
    if bytes.isEmpty then
      match t with
      | [] => some ([], 0)
      | c :: rest =>
        if c = '%' then none
        else if isTagChar c then
          (tagTextFrom bound rest).map fun (more, n) => (c :: more, n + 1)
        else some ([], 0)
    else if rest.head? = some '%' then none
    else do
      let decoded ← String.fromUTF8? ⟨bytes.toArray⟩
      let (more, n) ← tagTextFrom bound rest
      pure (decoded.toList ++ more, n + 3 * bytes.length)

/-- The name at a place, which is not empty, and the place behind it. -/
def tagText? (c : Cursor) : Option (Text × Cursor) :=
  match tagTextFrom (c.rest.length + 1) c.rest with
  | some (_, 0) => none
  | some (text, n) => some (text, c.advance n)
  | none => none

/-- The handle at a place, and the place behind it. -/
def tagHandle? (c : Cursor) : Option (Text × Cursor) :=
  if c.rest.head? ≠ some '!' then none
  else if c.step.rest.head? = some ' ' then some (['!'], c.step)
  else
    let (name, behind) := c.step.span isNameChar
    if behind.rest.head? = some '!' then some ('!' :: name ++ ['!'], behind.step) else none

/-- The tag between angle brackets at a place, and the place behind it. -/
def fullTag? (c : Cursor) : Option (Tag × Cursor) := do
  let (text, behind) ← tagText? (c.advance 2)
  if behind.rest.head? = some '>' then pure (⟨none, text⟩, behind.step) else none

/-- The tag with a handle at a place, and the place behind it. A single exclamation mark is a handle if
there is no other one before the next space. -/
def handledTag? (c : Cursor) : Option (Tag × Cursor) := do
  let word := c.step.rest.takeWhile fun x => !(x == ' ' || isLineEnd x)
  let (handle, behind) ← if word.contains '!' then tagHandle? c else some (['!'], c.step)
  let (text, behind) ← tagText? behind
  pure (⟨some handle, text⟩, behind)

/-- The tag at a place, and the place behind it. -/
def tag? (c : Cursor) : Option (Tag × Cursor) :=
  let found :=
    if c.step.rest.head? = some '<' then fullTag? c
    else if endsWord c.step.rest then some (⟨none, ['!']⟩, c.step)
    else handledTag? c
  found.filter fun (_, behind) => endsField behind.rest

/-! ### Directives -/

/-- A part of a version, and the place behind it. -/
def versionPart (c : Cursor) : Except Failure (Nat × Cursor) := do
  let (digits, behind) := c.span Text.isAsciiDigit
  if digits.isEmpty then throw .malformedYaml
  Decimal.checkDigits digits
  pure (Text.digitsValue digits, behind)

/-- The directive for a version behind its name, and the place behind it. -/
def versionDirective (c : Cursor) : Except Failure (Directive × Cursor) := do
  let (major, behind) ← versionPart c.skipSpaces
  if behind.rest.head? ≠ some '.' then throw .malformedYaml
  let (_, behind) ← versionPart behind.step
  if !endsField behind.rest then throw .malformedYaml
  pure (.version major, behind)

/-- The directive for a handle behind its name, and the place behind it. -/
def handleDirective? (c : Cursor) : Option (Directive × Cursor) := do
  let (handle, behind) ← tagHandle? c.skipSpaces
  if behind.rest.head? ≠ some ' ' then none
  let (beginning, behind) ← tagText? behind.skipSpaces
  if endsField behind.rest then pure (.handle handle beginning, behind) else none

/-- The directive at a place, and the place behind its line. -/
def directive (c : Cursor) : Except Failure (Directive × Cursor) := do
  let (name, behind) := c.step.span isNameChar
  if name.isEmpty || !endsField behind.rest then throw .malformedYaml
  let (found, behind) ←
    if name = "YAML".toList then versionDirective behind
    else if name = "TAG".toList then needed (handleDirective? behind)
    else pure (.other, behind.skip fun x => !isLineEnd x)
  pure (found, ← needed behind.finishLine?)

end Stencil.Yaml
