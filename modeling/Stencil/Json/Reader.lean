import Stencil.Decimal.Literal

/-!
# Reading JSON

A reader for JSON documents that also takes the numbers `NaN`, `Infinity` and `-Infinity`. An integer may
not have too many digits, and a number with a point or an exponent is a floating point number. A repeated key
keeps its first place and takes the last value.

The reader works on the text that is left. A `Problem` says what is missing there and keeps the text that
was left at that point; `Failure.malformedJson` gives it as a line, a column and an offset.
-/

namespace Stencil.Json

/-- Why a document cannot be read. -/
inductive Problem where
  /-- What was expected is missing before the text that is left. -/
  | missing (expected : String) (left : Text)
  /-- An integer has too many digits. -/
  | tooManyDigits (count : Nat)

/-- White space between the parts of a document. -/
def isSpace (c : Char) : Bool := c == ' ' || c == '\t' || c == '\n' || c == '\r'

/-- The text behind white space. -/
def skipSpace (t : Text) : Text := t.dropWhile isSpace

/-! ### Strings -/

/-- The character that a letter behind a backslash stands for. -/
def escaped? : Char → Option Char
  | '"' => some '"'
  | '\\' => some '\\'
  | '/' => some '/'
  | 'b' => some (Char.ofNat 8)
  | 'f' => some (Char.ofNat 12)
  | 'n' => some '\n'
  | 'r' => some '\r'
  | 't' => some '\t'
  | _ => none

/-- The number of exactly four hexadecimal digits with text behind them, and that text. -/
def fourDigits? (t : Text) : Option (Nat × Text) :=
  let digits := t.take 4
  let rest := t.drop 4
  if digits.length = 4 && digits.all (fun c => (Text.hexValue? c).isSome) && !rest.isEmpty then
    some (Text.hexNumber digits, rest)
  else none

/-- The second half of a surrogate pair. -/
def lowSurrogate? : Text → Option (Nat × Text)
  | '\\' :: 'u' :: t =>
    match fourDigits? t with
    | some (n, rest) => if 0xDC00 ≤ n && n ≤ 0xDFFF then some (n, rest) else none
    | none => none
  | _ => none

/-- The character that a code in a string stands for, together with the half that may follow. -/
def codedChar (n : Nat) (rest : Text) : Char × Text :=
  if 0xD800 ≤ n && n ≤ 0xDBFF then
    match lowSurrogate? rest with
    | some (low, rest') =>
      (Char.ofNat (0x10000 + (n - 0xD800) * 0x400 + (low - 0xDC00)), rest')
    | none => (Char.ofNat 0xFFFD, rest)
  else if 0xDC00 ≤ n && n ≤ 0xDFFF then (Char.ofNat 0xFFFD, rest)
  else (Char.ofNat n, rest)

/-- The rest of a string that began at `start`, with the characters read so far, last one first. -/
def readString (start : Text) : (bound : Nat) → (read : Text) → Text → Except Problem (Text × Text)
  | 0, _, t => .error (.missing "Unterminated string starting at" t)
  | _ + 1, _, [] => .error (.missing "Unterminated string starting at" start)
  | bound + 1, read, c :: cs =>
    if c = '"' then .ok (read.reverse, cs)
    else if c = '\\' then
      match cs with
      | [] => .error (.missing "Unterminated string starting at" start)
      | e :: rest =>
        if e = 'u' then
          match fourDigits? rest with
          | some (n, rest') =>
            let (coded, rest'') := codedChar n rest'
            readString start bound (coded :: read) rest''
          | none => .error (.missing "Invalid \\uXXXX escape" cs)
        else
          match escaped? e with
          | some x => readString start bound (x :: read) rest
          | none => .error (.missing "Invalid \\escape" (c :: cs))
    else if c.toNat ≤ 0x1F then .error (.missing "Invalid control character at" (c :: cs))
    else readString start bound (c :: read) cs

/-! ### Numbers -/

/-- A fraction or exponent part of a number that a sign character begins, if it has digits. -/
def fractionPart (t : Text) : Text :=
  match t with
  | '.' :: rest =>
    let digits := rest.takeWhile Text.isAsciiDigit
    if digits.isEmpty then [] else '.' :: digits
  | _ => []

/-- The exponent part of a number, if it has digits. -/
def exponentPart (t : Text) : Text :=
  match t with
  | e :: rest =>
    if e = 'e' || e = 'E' then
      let sign := rest.takeWhile fun c => c == '+' || c == '-'
      let digits := (rest.drop sign.length).takeWhile Text.isAsciiDigit
      if sign.length ≤ 1 && !digits.isEmpty then e :: sign ++ digits else []
    else []
  | [] => []

/-- The integer part of a number: a zero, or digits that do not begin with one. -/
def wholePart (t : Text) : Text :=
  match t.takeWhile Text.isAsciiDigit with
  | '0' :: _ => ['0']
  | digits => digits

/-- The number at the front of a text. -/
def readNumber (t : Text) : Except Problem (Value × Text) :=
  let sign := (t.take 1).takeWhile (· == '-')
  let whole := wholePart (t.drop sign.length)
  if whole.isEmpty then .error (.missing "Expecting value" t)
  else
    let rest := t.drop (sign.length + whole.length)
    let fraction := fractionPart rest
    let exponent := exponentPart (rest.drop fraction.length)
    let after := rest.drop (fraction.length + exponent.length)
    if fraction.isEmpty && exponent.isEmpty then
      if Decimal.digitLimit < whole.length then .error (.tooManyDigits whole.length)
      else .ok (.int ((Decimal.readInt? (sign ++ whole)).getD 0), after)
    else
      .ok (.float ((Decimal.readFraction? (sign ++ whole ++ fraction ++ exponent)).getD 0.0), after)

/-- The words that stand for values. -/
def words : List (Text × Value) :=
  [("null".toList, .null), ("true".toList, .bool true), ("false".toList, .bool false),
    ("NaN".toList, .float (0.0 / 0.0)), ("Infinity".toList, .float (1.0 / 0.0)),
    ("-Infinity".toList, .float (-1.0 / 0.0))]

/-- The word at the front of a text. -/
def word? (t : Text) : Option (Value × Text) :=
  words.findSome? fun (word, value) => (Text.after? word t).map fun rest => (value, rest)

/-! ### Documents -/

/-- A value without parts. -/
def readScalar (t : Text) : Except Problem (Value × Text) :=
  match word? t with
  | some found => .ok found
  | none => readNumber t

mutual

/-- The value at the front of a text. -/
def readValue : (bound : Nat) → Text → Except Problem (Value × Text)
  | 0, t => .error (.missing "Expecting value" t)
  | bound + 1, t =>
    match t with
    | '"' :: rest => do
      let (s, after) ← readString t (rest.length + 1) [] rest
      pure (.str (String.ofList s), after)
    | '[' :: rest =>
      match skipSpace rest with
      | ']' :: after => .ok (.list [], after)
      | inside => do
        let (items, after) ← readItems bound inside
        pure (.list items, after)
    | '\x7b' :: rest =>
      match skipSpace rest with
      | '\x7d' :: after => .ok (.map [], after)
      | inside => do
        let (entries, after) ← readEntries bound inside
        pure (.map (Mapping.ofEntries entries), after)
    | _ => readScalar t

/-- The items of a list up to its end. -/
def readItems : (bound : Nat) → Text → Except Problem (List Value × Text)
  | 0, t => .error (.missing "Expecting value" t)
  | bound + 1, t => do
    let (v, after) ← readValue bound t
    match skipSpace after with
    | ']' :: rest => pure ([v], rest)
    | ',' :: rest => do
      let (items, after) ← readItems bound (skipSpace rest)
      pure (v :: items, after)
    | left => throw (.missing "Expecting ',' delimiter" left)

/-- The entries of an object up to its end. -/
def readEntries : (bound : Nat) → Text → Except Problem (List (Value × Value) × Text)
  | 0, t => .error (.missing "Expecting value" t)
  | bound + 1, t =>
    match t with
    | '"' :: rest => do
      let (key, after) ← readString t (rest.length + 1) [] rest
      match skipSpace after with
      | ':' :: rest => do
        let (v, after) ← readValue bound (skipSpace rest)
        let entry := (Value.str (String.ofList key), v)
        match skipSpace after with
        | '\x7d' :: rest => pure ([entry], rest)
        | ',' :: rest => do
          let (entries, after) ← readEntries bound (skipSpace rest)
          pure (entry :: entries, after)
        | left => throw (.missing "Expecting ',' delimiter" left)
      | left => throw (.missing "Expecting ':' delimiter" left)
    | left => .error (.missing "Expecting property name enclosed in double quotes" left)

end

/-- A document: one value with white space around it. -/
def readDocument (t : Text) : Except Problem Value :=
  match t with
  | '\ufeff' :: _ => .error (.missing "Unexpected UTF-8 BOM (decode using utf-8-sig)" t)
  | _ => do
    let (v, after) ← readValue (2 * t.length + 2) (skipSpace t)
    match skipSpace after with
    | [] => pure v
    | left => throw (.missing "Extra data" left)

/-- A problem as a failure: lines and columns count from one, offsets from zero. -/
def Problem.failure (t : Text) : Problem → Failure
  | missing expected left =>
    let before := t.take (t.length - left.length)
    let line := before.reverse.takeWhile (· != '\n')
    .malformedJson expected (before.count '\n' + 1) (line.length + 1) before.length
  | tooManyDigits count => .tooManyDigits count

/-- Reads a document. -/
def read (t : Text) : Except Failure Value := (readDocument t).mapError (Problem.failure t)

end Stencil.Json
