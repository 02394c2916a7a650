import Stencil.Decimal.Shortest
import Stencil.Text.Word

/-!
# Decimal numbers in text

Writing integers and floating point numbers, and reading them back. A floating point number is
written with the fewest digits that read back as the same number: positionally, with at least one
digit behind the point, when its order of magnitude lies between `10 ^ -4` and `10 ^ 16`, and
otherwise with an exponent of a sign and at least two digits.
-/

namespace Stencil.Decimal

/-! ### Writing -/

/-- A natural number in decimal. -/
def natText (n : Nat) : Text := Nat.toDigits 10 n

/-- An integer in decimal. -/
def intText : Int → Text
  | .ofNat n => natText n
  | .negSucc n => '-' :: natText (n + 1)

/-- How the text of a floating point number is laid out. -/
structure Layout where
  /-- The least number of digits before the point, possibly negative, of positional notation. -/
  leastOrder : Int
  /-- The greatest number of digits before the point of positional notation. -/
  greatestOrder : Int
  /-- The least number of digits of an exponent. -/
  exponentWidth : Nat
  /-- The text of a number that is none. -/
  undefined : Text
  /-- The text of infinity. -/
  infinite : Text

/-- The layout of displayed numbers. -/
def Layout.display : Layout := ⟨-3, 16, 2, "nan".toList, "inf".toList⟩

/-- Digits with a point after the first `order` of them, filled with zeros where there are none. -/
def positional (digits : Text) (order : Int) : Text :=
  if order ≤ 0 then '0' :: '.' :: List.replicate (-order).toNat '0' ++ digits
  else
    let n := order.toNat
    let whole := digits.take n ++ List.replicate (n - digits.length) '0'
    let rest := digits.drop n
    whole ++ '.' :: (if rest.isEmpty then ['0'] else rest)

/-- Digits with a point after the first and an exponent. -/
def scientific (width : Nat) (digits : Text) (exponent : Int) : Text :=
  let shown := natText exponent.natAbs
  digits.take 1 ++ (if digits.length ≤ 1 then [] else '.' :: digits.drop 1) ++
    'e' :: (if exponent < 0 then '-' else '+') ::
    (List.replicate (width - shown.length) '0' ++ shown)

/-- A text of digits without the zeros at its end. -/
def dropZeros (digits : Text) : Text := (digits.reverse.dropWhile (· == '0')).reverse

/-- The text of a positive finite number. -/
def Layout.magnitude (layout : Layout) (b : Binary) : Text :=
  let (n, e) := shortest b
  let all := natText n
  let digits := dropZeros all
  let order := e + all.length
  if layout.leastOrder ≤ order && order ≤ layout.greatestOrder then positional digits order
  else scientific layout.exponentWidth digits (order - 1)

/-- The magnitude of a floating point number, from its bits; zero and what is not finite have none. -/
def Binary.ofFloat? (x : Float) : Option Binary :=
  let bits := x.toBits.toNat
  let hidden := Nat.pow 2 52
  let field : Nat := bits / hidden % 2048
  let fraction := bits % hidden
  if field = 2047 || (field = 0 && fraction = 0) then none
  else if field = 0 then some ⟨fraction, -1074, false⟩
  else some ⟨hidden + fraction, Int.ofNat field - 1075, fraction == 0 && field != 1⟩

/-- The text of a floating point number. -/
def Layout.text (layout : Layout) (x : Float) : Text :=
  let sign : Text := if x.toBits.toNat / Nat.pow 2 63 = 1 then ['-'] else []
  match Binary.ofFloat? x with
  | some b => sign ++ layout.magnitude b
  | none =>
    if x.isNaN then layout.undefined
    else if x == 0.0 then sign ++ ['0', '.', '0']
    else sign ++ layout.infinite

/-- The displayed text of a floating point number. -/
def floatText (x : Float) : Text := Layout.display.text x

/-! ### Reading -/

/-- A sign, if there is one, and what follows it. -/
def signed : Text → Bool × Text
  | '-' :: rest => (true, rest)
  | '+' :: rest => (false, rest)
  | rest => (false, rest)

/-- The integer that an optional sign and at least one decimal digit of any script write. -/
def readInt? (t : Text) : Option Int :=
  let (isNegative, digits) := signed t
  if digits.isEmpty || !digits.all Text.isDigit then none
  else
    let n : Int := Text.digitsValue digits
    some (if isNegative then -n else n)

/-- The floating point number nearest to `n · 10 ^ e`. Numbers far outside the range of floating
point are zero or infinite without computing the power. -/
def nearest (n : Nat) (e : Int) : Float :=
  let order := e + (natText n).length
  if n = 0 then 0.0
  else if order < -400 then 0.0
  else if 400 < order then 1.0 / 0.0
  else Float.ofScientific n (e < 0) e.natAbs

/-- The floating point number with a sign. -/
def withSign (isNegative : Bool) (x : Float) : Float := if isNegative then -x else x

/-- A decimal fraction: digits, and behind a point more digits, of which there is at least one, and
an optional exponent. -/
def readFraction? (t : Text) : Option Float :=
  let (isNegative, body) := signed t
  let whole := body.takeWhile Text.isDigit
  let afterWhole := body.drop whole.length
  let (decimals, tail) :=
    match afterWhole with
    | '.' :: rest => (rest.takeWhile Text.isDigit, rest.dropWhile Text.isDigit)
    | rest => ([], rest)
  if whole.isEmpty && decimals.isEmpty then none
  else
    let n := Text.digitsValue (whole ++ decimals)
    let places : Int := decimals.length
    match tail with
    | [] => some (withSign isNegative (nearest n (-places)))
    | e :: rest =>
      if e = 'e' || e = 'E' then
        (readInt? rest).map fun exponent => withSign isNegative (nearest n (exponent - places))
      else none

end Stencil.Decimal
