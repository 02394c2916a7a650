import Stencil.Failure
import Stencil.Text.Blank
import Stencil.Text.Reference

/-!
# Numbers given as text

Reading a text that has to be a number, with the failure of one that is none. An integer may have a sign
and white space around it, and in the bases two, eight and sixteen also the sign of its base. Its digits
are those of any script. An integer in base ten is only read up to a number of digits.
-/

namespace Stencil.Decimal

/-- The greatest number of digits of an integer that is read. -/
def digitLimit : Nat := 4300

/-- Refuses a text of too many digits. -/
def checkDigits (digits : Text) : Except Failure Unit :=
  if digitLimit < digits.length then .error (.tooManyDigits digits.length) else .ok ()

/-- A space or a control that moves the place of writing. -/
def isPlainBlank (c : Char) : Bool := c == ' ' || (9 ≤ c.toNat && c.toNat ≤ 13)

/-- White space that may stand around a number: in ASCII only the plain one. -/
def isNumberBlank (c : Char) : Bool :=
  if c.toNat < 0x80 then isPlainBlank c else Text.isBlank c

/-- A text without the white space that may stand around a number. -/
def trimNumber (t : Text) : Text :=
  ((t.dropWhile isNumberBlank).reverse.dropWhile isNumberBlank).reverse

/-- The value of a digit, up to fifteen. -/
def anyDigitValue? (c : Char) : Option Nat := (Text.digitValue? c).or (Text.hexValue? c)

/-- The value of a digit in a base. -/
def digitIn? (base : Nat) (c : Char) : Option Nat := (anyDigitValue? c).filter (· < base)

/-- The letter behind a zero in the sign of a base. -/
def baseLetter? : Nat → Option Char
  | 2 => some 'b'
  | 8 => some 'o'
  | 16 => some 'x'
  | _ => none

/-- A text without the sign of its base. -/
def withoutBase (base : Nat) (t : Text) : Text :=
  match t with
  | '0' :: letter :: rest => if baseLetter? base = some letter.toLower then rest else t
  | _ => t

/-- The number that digits in a base write, most significant first. -/
def valueIn (base : Nat) (digits : Text) : Nat :=
  digits.foldl (fun n c => base * n + (anyDigitValue? c).getD 0) 0

/-- Reads an integer in a base. -/
def readInteger (base : Nat) (t : Text) : Except Failure Int :=
  let (isNegative, body) := signed (t.dropWhile isNumberBlank)
  let body := withoutBase base body
  let digits := body.takeWhile fun c => (digitIn? base c).isSome
  let n : Int := valueIn base digits
  if base = 10 && digitLimit < digits.length then .error (.tooManyDigits digits.length)
  else if digits.isEmpty || (body.drop digits.length).any fun c => !isNumberBlank c then
    .error (.noInteger base (String.ofList t))
  else .ok (if isNegative then -n else n)

/-- The numbers that have a name. -/
def namedFloats : List (String × Float) :=
  [("nan", 0.0 / 0.0), ("inf", 1.0 / 0.0), ("infinity", 1.0 / 0.0)]

/-- A text without the underscores between its digits. -/
def joinDigitGroups : Text → Text
  | c :: '_' :: d :: rest =>
    if Text.isDigit c && Text.isDigit d then c :: joinDigitGroups (d :: rest)
    else c :: '_' :: joinDigitGroups (d :: rest)
  | c :: rest => c :: joinDigitGroups rest
  | [] => []

/-- The floating point number that a text writes: a name or a decimal fraction, with a sign and white
space around it. An underscore may stand between two digits. -/
def float? (t : Text) : Option Float :=
  let t := joinDigitGroups (trimNumber t)
  let (isNegative, body) := signed t
  match namedFloats.lookup (String.ofList (body.map Char.toLower)) with
  | some x => some (withSign isNegative x)
  | none => readFraction? t

/-- Reads a floating point number. -/
def readFloat (t : Text) : Except Failure Float :=
  match float? t with
  | some x => .ok x
  | none => .error (.noFloat (String.ofList t))

/-- A text of few digits passes. -/
theorem checkDigits_of_length_le {digits : Text} (h : digits.length ≤ digitLimit) :
    checkDigits digits = .ok () := by
  simp [checkDigits, Nat.not_lt.2 h]

end Stencil.Decimal
