import Stencil.Decimal.Literal
import Stencil.Text.Base64
import Stencil.Text.Case
import Stencil.Yaml.Cursor
import Stencil.Yaml.Kind

/-!
# The values of YAML scalars

The value that a text of some type writes. A tag may ask for a type that the text does not show, so every text
can come with every type, and each type has failures of its own: a text that is no number, a day that there
is not.
-/

namespace Stencil.Yaml

/-- A text without its underscores. -/
def compact (t : Text) : Text := t.filter (· != '_')

/-- The sign of a number and the text behind it; there must be a character that may be a sign. -/
def signOf (t : Text) : Except Failure (Bool × Text) :=
  if t.isEmpty then .error .emptyNumber else .ok (Decimal.signed t)

/-- A number with a sign. -/
def signedInt (isNegative : Bool) (i : Int) : Int := if isNegative then -i else i

/-- The parts of a number between colons. -/
def sixtiethParts (t : Text) : List Text := Text.splitBy (· == ':') t

/-- The number of integers, each of which counts sixty of the next one. -/
def sexagesimalInt (parts : List Int) : Int := parts.foldl (fun n part => 60 * n + part) 0

/-- The integer that a text without a sign writes. -/
def magnitude (t : Text) : Except Failure Int :=
  match t with
  | [] => .error .emptyNumber
  | ['0'] => .ok 0
  | '0' :: 'b' :: rest => Decimal.readInteger 2 rest
  | '0' :: 'x' :: rest => Decimal.readInteger 16 rest
  | '0' :: _ => Decimal.readInteger 8 t
  | _ =>
    if t.contains ':' then do
      pure (sexagesimalInt (← (sixtiethParts t).mapM (Decimal.readInteger 10)))
    else Decimal.readInteger 10 t

/-- The integer that a text writes. -/
def integerValue (t : Text) : Except Failure Int := do
  let (isNegative, body) ← signOf (compact t)
  pure (signedInt isNegative (← magnitude body))

/-- The number of fractions, each of which counts sixty of the next one; the small ones are added first. -/
def sexagesimalFloat (parts : List Float) : Float :=
  (parts.reverse.foldl
    (fun (sum, weight) part => (sum + part * weight, weight * 60.0)) (0.0, 1.0)).1

/-- The floating point number that a text writes. -/
def fractionValue (t : Text) : Except Failure Float := do
  let (isNegative, body) ← signOf (Text.lower (compact t))
  if body = ".inf".toList then pure (Decimal.withSign isNegative (1.0 / 0.0))
  else if body = ".nan".toList then pure (0.0 / 0.0)
  else if body.contains ':' then do
    pure (Decimal.withSign isNegative
      (sexagesimalFloat (← (sixtiethParts body).mapM Decimal.readFloat)))
  else do pure (Decimal.withSign isNegative (← Decimal.readFloat body))

/-- The words for truth values. -/
def truthWords : List (String × Bool) :=
  [("yes", true), ("no", false), ("true", true), ("false", false), ("on", true), ("off", false)]

/-- The truth value that a word in any case stands for. -/
def truthValue (t : Text) : Except Failure Bool :=
  let word := String.ofList (Text.lower t)
  match truthWords.lookup word with
  | some b => .ok b
  | none => .error (.noEntry word)

/-- The bytes that a text writes in base 64, one per character. -/
def bytesValue (t : Text) : Except Failure String :=
  if t.all fun c => c.toNat < 0x80 then
    (needed (Text.decodeBase64? t)).map fun bytes => String.ofList (bytes.map Char.ofNat)
  else .error .malformedYaml

/-- The day or moment that a text writes, which there has to be. -/
def timeValue (t : Text) : Except Failure Value :=
  match date? 1 t, moment? t with
  | some date, _ =>
    match date.fault? with
    | some fault => .error (.noMoment fault)
    | none => .ok (.date date)
  | none, some moment =>
    match moment.fault? with
    | some fault => .error (.noMoment fault)
    | none => .ok (.moment moment)
  | none, none => .error (.noMember Value.null.typeName "groupdict")

/-- The value that a text of a type writes. -/
def Kind.value (kind : Kind) (t : Text) : Except Failure Value :=
  match kind with
  | .nothing => .ok .null
  | .truth => (truthValue t).map .bool
  | .integer => (integerValue t).map .int
  | .fraction => (fractionValue t).map .float
  | .time => timeValue t
  | .binary => (bytesValue t).map .bytes
  | .text => .ok (.str (String.ofList t))
  | .list | .map | .pairs | .set | .merge | .default | .unknown => .error .malformedYaml

end Stencil.Yaml
