import Stencil.Text.Word
import Stencil.Value.Moment

/-!
# Days and moments in YAML

A day is written as year, month and day with hyphens between them. A moment has a time behind its day, apart
from it by a letter or white space, and perhaps a fraction of a second and the distance from universal time:
the letter `Z` for none, or a sign with hours and perhaps minutes.

What is written need not exist: there may be no such day.
-/

namespace Stencil.Yaml

/-- The number that some digits at the front of a text write, and the text behind them; there are no fewer
and no more digits than given. -/
def digitsAt? (least greatest : Nat) (t : Text) : Option (Nat × Text) :=
  let digits := (t.take greatest).takeWhile Text.isAsciiDigit
  if least ≤ digits.length then some (Text.digitsValue digits, t.drop digits.length) else none

/-- The day at the front of a text, whose month and day have at least some digits, and the text behind
it. -/
def dateAt? (least : Nat) (t : Text) : Option (Date × Text) := do
  let (year, t) ← digitsAt? 4 4 t
  let (month, t) ← digitsAt? least 2 (← Text.after? ['-'] t)
  let (day, t) ← digitsAt? least 2 (← Text.after? ['-'] t)
  pure (⟨year, month, day⟩, t)

/-- A space or a tab. -/
def isSpace (c : Char) : Bool := c == ' ' || c == '\t'

/-- The text behind what separates a day from a time. -/
def afterDateGap? : Text → Option Text
  | [] => none
  | c :: rest =>
    if c == 'T' || c == 't' then some rest
    else if isSpace c then some (rest.dropWhile isSpace)
    else none

/-- The millionths of a second that the digits of a fraction write. -/
def microseconds (digits : Text) : Nat :=
  let first := digits.take 6
  Text.digitsValue first * Nat.pow 10 (6 - first.length)

/-- The fraction of a second at the front of a text, in millionths, and the text behind it. -/
def fractionAt (t : Text) : Nat × Text :=
  match t with
  | '.' :: rest =>
    (microseconds (rest.takeWhile Text.isAsciiDigit), rest.dropWhile Text.isAsciiDigit)
  | _ => (0, t)

/-- The minutes of a distance from universal time that a text behind its sign writes. -/
def distance? (t : Text) : Option Nat := do
  let (hours, t) ← digitsAt? 1 2 t
  match t with
  | [] => pure (60 * hours)
  | ':' :: rest =>
    match ← digitsAt? 2 2 rest with
    | (minutes, []) => pure (60 * hours + minutes)
    | _ => none
  | _ => none

/-- The distance from universal time that a text writes, in minutes; nothing is no distance. -/
def zone? (t : Text) : Option (Option Int) :=
  if t.isEmpty then some none
  else
    match t.dropWhile isSpace with
    | ['Z'] => some (some 0)
    | '+' :: rest => (distance? rest).map fun n => some n
    | '-' :: rest => (distance? rest).map fun n => some (-n)
    | _ => none

/-- The moment that a text writes. -/
def moment? (t : Text) : Option Moment := do
  let (date, t) ← dateAt? 1 t
  let (hour, t) ← digitsAt? 1 2 (← afterDateGap? t)
  let (minute, t) ← digitsAt? 2 2 (← Text.after? [':'] t)
  let (second, t) ← digitsAt? 2 2 (← Text.after? [':'] t)
  let (microsecond, t) := fractionAt t
  pure ⟨date, hour, minute, second, microsecond, ← zone? t⟩

/-- The day that a text writes. -/
def date? (least : Nat) (t : Text) : Option Date :=
  match dateAt? least t with
  | some (date, []) => some date
  | _ => none

/-- Whether a text shows that it is a day or a moment; a day alone has two digits for month and day. -/
def isTime (t : Text) : Bool := (date? 2 t).isSome || (moment? t).isSome

end Stencil.Yaml
