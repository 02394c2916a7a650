import Stencil.Text.Basic
import Stencil.Text.Word
import Stencil.Text.Table.Reference

/-!
# Character references

Decoding of `&name;`, `&#38;` and `&#x26;` as HTML prescribes for attribute values. A reference by
number may name a code point of the old Windows character set, which stands for the character that
set had there; a number that is no character at all becomes the replacement character or nothing.
A reference by name is the longest known name at that place: names of the current standard end with
a semicolon, and the legacy ones among them count without it, also as the beginning of a longer
word.
-/

namespace Stencil.Text

/-! ### References by name -/

/-- The names that escaping produces. -/
def basicReferences : List (Text × Text) :=
  [("amp".toList, ['&']), ("lt".toList, ['<']), ("gt".toList, ['>']), ("quot".toList, ['"'])]

/-- The value of a hexadecimal digit. -/
def hexValue? (c : Char) : Option Nat :=
  if '0' ≤ c && c ≤ '9' then some (c.toNat - 48)
  else if 'a' ≤ c && c ≤ 'f' then some (c.toNat - 87)
  else if 'A' ≤ c && c ≤ 'F' then some (c.toNat - 55)
  else none

/-- The number written by hexadecimal digits, most significant first. -/
def hexNumber (t : Text) : Nat := t.foldl (fun n c => 16 * n + (hexValue? c).getD 0) 0

/-- The entry that a table word `name=X+Y` describes. -/
def referenceEntry (word : Text) : Text × Text :=
  match cut? ['='] word with
  | some (name, codes) => (name, (splitBy (· == '+') codes).map fun x => Char.ofNat (hexNumber x))
  | none => (word, [])

/-- The names that take a semicolon, with the texts they stand for. -/
def references : List (Text × Text) :=
  basicReferences ++
    referenceWords.flatMap fun line => (splitBy (· == ' ') line.toList).map referenceEntry

/-- The names that may also be written without a semicolon. -/
def bareNames : List Text :=
  basicReferences.map Prod.fst ++
    legacyNames.flatMap fun line => splitBy (· == ' ') line.toList

/-- The text that a name with its semicolon stands for. -/
def named? (name : Text) : Option Text := references.lookup name

/-- The text that a name without a semicolon stands for. -/
def bareNamed? (name : Text) : Option Text :=
  if bareNames.contains name then named? name else none

/-- The text of the longest legacy name, of at least two characters and at most `n`, that a word
starts with, followed by the rest of the word. -/
def longestNamed? (word : Text) : Nat → Option Text
  | 0 => none
  | n + 1 =>
    if n = 0 then none
    else
      match bareNamed? (word.take (n + 1)) with
      | some t => some (t ++ word.drop (n + 1))
      | none => longestNamed? word n

/-- A character that may stand in the name of a reference. -/
def isNameChar (c : Char) : Bool :=
  !(c == '\t' || c == '\n' || c == '\x0c' || c == ' ' || c == '<' || c == '&' || c == '#' ||
    c == ';')

/-- What a word behind an ampersand stands for, with or without a semicolon behind it. -/
def namedText (word : Text) (closed : Bool) : Text :=
  let tail : Text := if closed then [';'] else []
  match if closed then named? word else bareNamed? word with
  | some t => t
  | none =>
    match longestNamed? word (if closed then word.length else word.length - 1) with
    | some t => t ++ tail
    | none => '&' :: word ++ tail

/-! ### References by number -/

/-- The characters at 0x80 to 0x9F of the old Windows character set. -/
def windowsCodes : List Nat :=
  [0x20AC, 0x81, 0x201A, 0x192, 0x201E, 0x2026, 0x2020, 0x2021, 0x2C6, 0x2030, 0x160, 0x2039,
   0x152, 0x8D, 0x17D, 0x8F, 0x90, 0x2018, 0x2019, 0x201C, 0x201D, 0x2022, 0x2013, 0x2014,
   0x2DC, 0x2122, 0x161, 0x203A, 0x153, 0x9D, 0x17E, 0x178]

/-- A control or non-character that a reference by number cannot produce. -/
def isForbiddenCode (n : Nat) : Bool :=
  (1 ≤ n && n ≤ 8) || n == 0xB || (0xE ≤ n && n ≤ 0x1F) || n == 0x7F ||
    (0xFDD0 ≤ n && n ≤ 0xFDEF) || n % 0x10000 == 0xFFFE || n % 0x10000 == 0xFFFF

/-- The text that a reference by number stands for. -/
def numberedText (n : Nat) : Text :=
  if n = 0 then [Char.ofNat 0xFFFD]
  else if 0x80 ≤ n && n < 0xA0 then [Char.ofNat (windowsCodes.getD (n - 0x80) n)]
  else if (0xD800 ≤ n && n ≤ 0xDFFF) || 0x10FFFF < n then [Char.ofNat 0xFFFD]
  else if isForbiddenCode n then []
  else [Char.ofNat n]

/-! ### Decoding -/

/-- Whether a semicolon comes next, and the text behind it if so. -/
def semicolon : Text → Bool × Text
  | ';' :: rest => (true, rest)
  | rest => (false, rest)

/-- The reference at the front of a text: what it stands for. -/
def reference : Matcher Text
  | '&' :: '#' :: x :: rest =>
    if isAsciiDigit x then
      some (numberedText (digitsValue ((x :: rest).takeWhile isAsciiDigit)),
        (semicolon (rest.dropWhile isAsciiDigit)).2)
    else if x = 'x' || x = 'X' then
      let digits := rest.takeWhile fun c => (hexValue? c).isSome
      if digits.isEmpty then none
      else
        some (numberedText (hexNumber digits), (semicolon (rest.drop digits.length)).2)
    else none
  | '&' :: rest =>
    let word := (rest.take 32).takeWhile isNameChar
    if word.isEmpty then none
    else
      let (closed, after) := semicolon (rest.drop word.length)
      some (namedText word closed, after)
  | _ => none

/-- The text with all character references decoded. -/
def decodeReferences (t : Text) : Text := replaceEach reference id t

/-- A text without an ampersand holds no reference. -/
theorem decodeReferences_of_not_mem {t : Text} (h : '&' ∉ t) : decodeReferences t = t := by
  refine replaceEach_of_none id fun s hs => ?_
  cases s with
  | nil => rfl
  | cons c cs =>
    have hc : c ≠ '&' := fun hc => h (hs.subset (by simp [hc]))
    unfold reference
    split
    · next heq => exact absurd (List.cons.inj heq).1 hc
    · next heq => exact absurd (List.cons.inj heq).1 hc
    · rfl

end Stencil.Text
