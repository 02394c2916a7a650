import Stencil.Text.Reference
import Stencil.Yaml.Time

/-!
# The types of YAML nodes

The text of a plain scalar shows its type: nothing, a truth value, an integer in one of five notations, a
decimal fraction, a point in time, the sign that merges mappings, or else text. A number may have
underscores between its digits, and digits before a colon count sixty of those behind it.

A tag names a type, among them some that no text shows.
-/

namespace Stencil.Yaml

/-- The type of a node. -/
inductive Kind where
  /-- Nothing. -/
  | nothing
  /-- A truth value. -/
  | truth
  /-- An integer. -/
  | integer
  /-- A floating point number. -/
  | fraction
  /-- A day or a moment. -/
  | time
  /-- Bytes in base 64. -/
  | binary
  /-- Text. -/
  | text
  /-- A list. -/
  | list
  /-- A mapping. -/
  | map
  /-- A list of pairs. -/
  | pairs
  /-- The keys of a mapping. -/
  | set
  /-- The sign that merges a mapping into the one around it. -/
  | merge
  /-- The sign of a default value. -/
  | default
  /-- A type that is not known. -/
  | unknown
  deriving DecidableEq, Repr

/-- The standard types by their names. -/
def Kind.names : List (String × Kind) :=
  [("null", nothing), ("bool", truth), ("int", integer), ("float", fraction), ("timestamp", time),
    ("binary", binary), ("str", text), ("seq", list), ("map", map), ("omap", pairs),
    ("pairs", pairs), ("set", set), ("merge", merge), ("value", default)]

/-! ### Shapes of numbers -/

/-- A text without a sign at its front. -/
def withoutSign (t : Text) : Text := (Decimal.signed t).2

/-- A digit or an underscore. -/
def isSpaced (p : Char → Bool) (c : Char) : Bool := p c || c == '_'

/-- A text of at least one character, all of which pass a test. -/
def isRun (p : Char → Bool) (t : Text) : Bool := !t.isEmpty && t.all p

/-- A text that begins with a digit, and has digits and underscores behind it. -/
def isDigits (t : Text) : Bool :=
  match t with
  | c :: rest => Text.isAsciiDigit c && rest.all (isSpaced Text.isAsciiDigit)
  | [] => false

/-- One or two digits of a number below sixty. -/
def isSixtieth : Text → Bool
  | [a] => Text.isAsciiDigit a
  | [a, b] => '0' ≤ a && a ≤ '5' && Text.isAsciiDigit b
  | _ => false

/-- A number with further parts behind colons. -/
def isSexagesimal (first : Text → Bool) (t : Text) : Bool :=
  match Text.splitBy (· == ':') t with
  | whole :: part :: parts => first whole && (part :: parts).all isSixtieth
  | _ => false

/-- A number that does not begin with a zero. -/
def isPositive (t : Text) : Bool := isDigits t && t.head? != some '0'

/-- Whether a text is an integer. -/
def isInteger (t : Text) : Bool :=
  let body := withoutSign t
  body == ['0'] || isPositive body || isSexagesimal isPositive body ||
    match body with
    | '0' :: 'b' :: rest => isRun (isSpaced fun c => c == '0' || c == '1') rest
    | '0' :: 'x' :: rest => isRun (isSpaced fun c => (Text.hexValue? c).isSome) rest
    | '0' :: rest => isRun (isSpaced fun c => '0' ≤ c && c ≤ '7') rest
    | _ => false

/-- Whether a text is empty or an exponent with a sign. -/
def isExponent : Text → Bool
  | [] => true
  | e :: sign :: rest =>
    (e == 'e' || e == 'E') && (sign == '-' || sign == '+') && isRun Text.isAsciiDigit rest
  | _ => false

/-- A point with decimals and perhaps an exponent behind it. -/
def isDecimalsFrom (isNeeded : Bool) : Text → Bool
  | '.' :: rest =>
    let decimals := rest.takeWhile (isSpaced Text.isAsciiDigit)
    (!isNeeded || isDigits decimals) && isExponent (rest.drop decimals.length)
  | _ => false

/-- The names of infinity and of no number. -/
def infinityNames : List Text := [".inf".toList, ".Inf".toList, ".INF".toList]

/-- The names of no number. -/
def undefinedNames : List Text := [".nan".toList, ".NaN".toList, ".NAN".toList]

/-- Whether a text is a number of parts behind colons with a point behind the last one. -/
def isSexagesimalFraction (t : Text) : Bool :=
  match Text.cut? ['.'] t with
  | some (whole, decimals) =>
    isSexagesimal isDigits whole && decimals.all (isSpaced Text.isAsciiDigit)
  | none => false

/-- Whether a text is a floating point number. -/
def isFraction (t : Text) : Bool :=
  let body := withoutSign t
  let whole := body.takeWhile (isSpaced Text.isAsciiDigit)
  (isDigits whole && isDecimalsFrom false (body.drop whole.length)) || isDecimalsFrom true t ||
    isSexagesimalFraction body || infinityNames.contains body || undefinedNames.contains t

/-! ### The type of a text -/

/-- The texts that are nothing. -/
def nothingNames : List Text := [[], ['~'], "null".toList, "Null".toList, "NULL".toList]

/-- The texts that are true. -/
def trueNames : List Text :=
  ["yes", "Yes", "YES", "true", "True", "TRUE", "on", "On", "ON"].map String.toList

/-- The texts that are false. -/
def falseNames : List Text :=
  ["no", "No", "NO", "false", "False", "FALSE", "off", "Off", "OFF"].map String.toList

/-- The type that a plain text shows. -/
def Kind.of (t : Text) : Kind :=
  if nothingNames.contains t then nothing
  else if trueNames.contains t || falseNames.contains t then truth
  else if isFraction t then fraction
  else if isInteger t then integer
  else if t == ['<', '<'] then merge
  else if isTime t then time
  else if t == ['='] then default
  else text

end Stencil.Yaml
