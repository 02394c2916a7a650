import Stencil.Decimal.Number

/-!
# Days and moments

A day of the calendar, and a moment: a day, a time of that day and, where it is known, how far the local
time is ahead of universal time. A `Fault` says which part lies outside its range; a part that is written
earlier is looked at first, but the distance from universal time comes before all others.

Moments with a known distance are the same when they are at the same time everywhere; other moments are
the same when all their parts are.
-/

namespace Stencil

/-- A day of the calendar. -/
structure Date where
  /-- The year. -/
  year : Nat
  /-- The month, from one on. -/
  month : Nat
  /-- The day of the month, from one on. -/
  day : Nat
  deriving DecidableEq, Repr

/-- A moment. -/
structure Moment where
  /-- The day. -/
  date : Date
  /-- The hour. -/
  hour : Nat
  /-- The minute. -/
  minute : Nat
  /-- The second. -/
  second : Nat
  /-- The millionth of a second. -/
  microsecond : Nat
  /-- The minutes by which the local time is ahead of universal time. -/
  offset : Option Int
  deriving DecidableEq, Repr

/-- What is wrong with a day or moment. -/
inductive Moment.Fault where
  /-- There is no such year. -/
  | year (given : Nat)
  /-- There is no such month. -/
  | month
  /-- The month has no such day. -/
  | day
  /-- There is no such hour. -/
  | hour
  /-- There is no such minute. -/
  | minute
  /-- There is no such second. -/
  | second
  /-- The local time is a day or more apart from universal time. -/
  | offset (minutes : Int)
  deriving DecidableEq, Repr

namespace Date

/-- Whether a year has a day more. -/
def isLeapYear (year : Nat) : Bool := year % 4 == 0 && (year % 100 != 0 || year % 400 == 0)

/-- The number of days in a month. -/
def daysInMonth (year month : Nat) : Nat :=
  if month = 2 then if isLeapYear year then 29 else 28
  else if [4, 6, 9, 11].contains month then 30
  else 31

/-- What is wrong with a day. -/
def fault? (d : Date) : Option Moment.Fault :=
  if d.year = 0 then some (.year d.year)
  else if d.month = 0 || 12 < d.month then some .month
  else if d.day = 0 || daysInMonth d.year d.month < d.day then some .day
  else none

/-- The number of days up to the end of a year. -/
def daysThrough (year : Nat) : Nat := 365 * year + year / 4 - year / 100 + year / 400

/-- The number of a day, counted from the first day of all. -/
def ordinal (d : Date) : Nat :=
  let before := (List.range (d.month - 1)).foldl (fun n k => n + daysInMonth d.year (k + 1)) 0
  daysThrough (d.year - 1) + before + d.day

/-- The parts of a day by their names. -/
def parts (d : Date) : List (String × Nat) := [("year", d.year), ("month", d.month), ("day", d.day)]

end Date

namespace Moment

/-- The parts of a moment by their names. -/
def parts (m : Moment) : List (String × Nat) :=
  m.date.parts ++
    [("hour", m.hour), ("minute", m.minute), ("second", m.second), ("microsecond", m.microsecond),
      ("fold", 0)]

/-- What is wrong with a moment. -/
def fault? (m : Moment) : Option Fault :=
  match m.offset.filter fun minutes => 1440 ≤ minutes.natAbs with
  | some minutes => some (.offset minutes)
  | none =>
    m.date.fault?.or <|
      if 23 < m.hour then some .hour
      else if 59 < m.minute then some .minute
      else if 59 < m.second then some .second
      else none

/-- The millionths of a second since the beginning of the first day, in universal time. -/
def instant (m : Moment) (offset : Int) : Int :=
  let minutes : Int := (m.date.ordinal * 24 + m.hour) * 60 + m.minute
  ((minutes - offset) * 60 + m.second) * 1000000 + m.microsecond

/-- Whether two moments are the same. -/
def same (a b : Moment) : Bool :=
  match a.offset, b.offset with
  | some x, some y => a.instant x == b.instant y
  | _, _ => a = b

end Moment

/-! ### Display -/

/-- A number with at least some digits. -/
def padded (width n : Nat) : Text :=
  let shown := Decimal.natText n
  List.replicate (width - shown.length) '0' ++ shown

/-- A day as year, month and day. -/
def Date.text (d : Date) : Text :=
  padded 4 d.year ++ '-' :: padded 2 d.month ++ '-' :: padded 2 d.day

/-- Parts in the parentheses of what they are parts of. -/
def partsText (name : String) (parts : List Text) : Text :=
  name.toList ++ '(' :: Text.joinWith [',', ' '] parts ++ [')']

/-- A day as it is shown inside a container. -/
def Date.inspect (d : Date) : Text :=
  partsText "datetime.date" ([d.year, d.month, d.day].map Decimal.natText)

/-- A number of minutes as it is shown inside a container: whole days, which alone may be negative, and
seconds. -/
def minutesInspect (minutes : Int) : Text :=
  let days := minutes.fdiv 1440
  let seconds := minutes.fmod 1440 * 60
  let parts :=
    (if days = 0 then [] else ["days=".toList ++ Decimal.intText days]) ++
      (if seconds = 0 then [] else ["seconds=".toList ++ Decimal.intText seconds])
  partsText "datetime.timedelta" (if parts.isEmpty then [['0']] else parts)

namespace Moment

/-- A distance from universal time behind its sign. -/
def offsetText (minutes : Int) : Text :=
  (if minutes < 0 then '-' else '+') ::
    padded 2 (minutes.natAbs / 60) ++ ':' :: padded 2 (minutes.natAbs % 60)

/-- A moment as day, time and distance from universal time. -/
def text (m : Moment) : Text :=
  m.date.text ++ ' ' :: padded 2 m.hour ++ ':' :: padded 2 m.minute ++ ':' :: padded 2 m.second ++
    (if m.microsecond = 0 then [] else '.' :: padded 6 m.microsecond) ++
    ((m.offset.map offsetText).getD [])

/-- A distance from universal time as it is shown inside a container. -/
def offsetInspect (minutes : Int) : Text :=
  if minutes = 0 then "datetime.timezone.utc".toList
  else partsText "datetime.timezone" [minutesInspect minutes]

/-- A moment as it is shown inside a container: seconds and their millionths only where they are not
zero. -/
def inspect (m : Moment) : Text :=
  let small :=
    if m.microsecond = 0 then if m.second = 0 then [] else [m.second] else [m.second, m.microsecond]
  let numbers := [m.date.year, m.date.month, m.date.day, m.hour, m.minute] ++ small
  partsText "datetime.datetime" (numbers.map Decimal.natText ++
    (m.offset.map fun minutes => "tzinfo=".toList ++ offsetInspect minutes).toList)

/-- The text of a fault. -/
def Fault.message : Fault → String
  | year given => "year " ++ toString given ++ " is out of range"
  | month => "month must be in 1..12"
  | day => "day is out of range for month"
  | hour => "hour must be in 0..23"
  | minute => "minute must be in 0..59"
  | second => "second must be in 0..59"
  | offset minutes =>
    "offset must be a timedelta strictly between -timedelta(hours=24) and timedelta(hours=24), not " ++
      String.ofList (minutesInspect minutes) ++ "."

/-- A moment is the same as itself. -/
@[simp] theorem same_self (m : Moment) : m.same m = true := by
  cases h : m.offset <;> simp [same, h]

end Moment

end Stencil
