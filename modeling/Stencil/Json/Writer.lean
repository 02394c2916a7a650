import Stencil.Value.Display
import Stencil.Text.Quoted

/-!
# Writing JSON

A value as a JSON document, on one line or over several. Over several lines, every item of a list and
every entry of a mapping stands on a line of its own, two spaces further in than what holds it; empty
containers are always written as a pair of brackets. What JSON has no form for is written as its text.
-/

namespace Stencil.Json

/-- How a document is written. -/
structure Layout where
  /-- Whether it goes over several lines. -/
  isIndented : Bool
  /-- Which characters are written as they are. -/
  isShown : Char → Bool

/-- The layout of reports: over several lines, with ASCII characters only. -/
def Layout.report : Layout := ⟨true, fun c => 32 ≤ c.toNat && c.toNat < 127⟩

/-- The layout of answers: on one line, with all characters but controls and line separators. -/
def Layout.answer : Layout :=
  ⟨false, fun c => 32 ≤ c.toNat && !(127 ≤ c.toNat && c.toNat < 160) && c.toNat != 0x2028 &&
    c.toNat != 0x2029⟩

/-- A code unit as an escape. -/
def unitEscape (n : Nat) : Text := '\\' :: 'u' :: Text.hexDigits 4 n

/-- The escape of a character: one code unit, or a pair of surrogates. -/
def charEscape (c : Char) : Text :=
  let n := c.toNat
  if n < 0x10000 then unitEscape n
  else unitEscape (0xD800 + (n - 0x10000) / 0x400) ++ unitEscape (0xDC00 + (n - 0x10000) % 0x400)

/-- A character inside a string. -/
def charText (layout : Layout) (c : Char) : Text :=
  if c = '"' then ['\\', '"']
  else if c = '\\' then ['\\', '\\']
  else if c = '\n' then ['\\', 'n']
  else if c = '\r' then ['\\', 'r']
  else if c = '\t' then ['\\', 't']
  else if c.toNat = 8 then ['\\', 'b']
  else if c.toNat = 12 then ['\\', 'f']
  else if layout.isShown c then [c]
  else charEscape c

/-- A string. -/
def stringText (layout : Layout) (t : Text) : Text := '"' :: t.flatMap (charText layout) ++ ['"']

/-- A floating point number. -/
def floatText (x : Float) : Text :=
  if x.isNaN then "NaN".toList
  else if x.isInf then if x < 0.0 then "-Infinity".toList else "Infinity".toList
  else Decimal.floatText x

/-- A value as the key of an object. -/
def keyText : Value → Text
  | .null => "null".toList
  | .bool b => if b then "true".toList else "false".toList
  | .float x => floatText x
  | v => v.display

/-- The line break and indentation at a depth. -/
def lineStart (layout : Layout) (depth : Nat) : Text :=
  if layout.isIndented then '\n' :: List.replicate (2 * depth) ' ' else []

/-- Parts between brackets, at the depth of what holds them. -/
def bracketed (layout : Layout) (opening closing : Char) (depth : Nat) (parts : List Text) : Text :=
  if parts.isEmpty then [opening, closing]
  else
    opening :: lineStart layout (depth + 1) ++
      Text.joinWith (',' :: lineStart layout (depth + 1)) parts ++
      lineStart layout depth ++ [closing]

mutual

/-- A value at a depth. -/
def valueText (layout : Layout) (depth : Nat) : Value → Text
  | .null => "null".toList
  | .bool b => if b then "true".toList else "false".toList
  | .int i => Decimal.intText i
  | .float x => floatText x
  | .list items | .tuple items =>
    bracketed layout '[' ']' depth (itemTexts layout (depth + 1) items)
  | .map entries => bracketed layout '\x7b' '\x7d' depth (entryTexts layout (depth + 1) entries)
  | v => stringText layout v.display

/-- The items of a list at a depth. -/
def itemTexts (layout : Layout) (depth : Nat) : List Value → List Text
  | [] => []
  | v :: rest => valueText layout depth v :: itemTexts layout depth rest

/-- The entries of a mapping at a depth. -/
def entryTexts (layout : Layout) (depth : Nat) : List (Value × Value) → List Text
  | [] => []
  | (key, v) :: rest =>
    (stringText layout (keyText key) ++ (if layout.isIndented then [':', ' '] else [':']) ++
      valueText layout depth v) :: entryTexts layout depth rest

end

/-- Writes a document. -/
def write (layout : Layout) (v : Value) : Text := valueText layout 0 v

end Stencil.Json
