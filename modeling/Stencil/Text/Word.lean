import Stencil.Text.Basic
import Stencil.Text.Table.Word
import Stencil.Text.Table.Digit
import Stencil.Text.Table.Printable

/-!
# Classes of characters

Letters, word characters, decimal digits and printable characters. Each class is an explicit test on
ASCII followed by a table of ranges, so that what is asked most often needs no table.
-/

namespace Stencil.Text

/-- Whether a code point lies in one of the ranges, which are in increasing order. -/
def inRanges (n : Nat) : List (Nat × Nat) → Bool
  | [] => false
  | (lo, hi) :: rest => lo ≤ n && (n ≤ hi || inRanges n rest)

/-- An ASCII letter. -/
def isAsciiLetter (c : Char) : Bool :=
  ('a' ≤ c && c ≤ 'z') || ('A' ≤ c && c ≤ 'Z')

/-- An ASCII digit. -/
def isAsciiDigit (c : Char) : Bool := '0' ≤ c && c ≤ '9'

/-- An ASCII letter, digit or underscore. -/
def isAsciiWord (c : Char) : Bool := isAsciiLetter c || isAsciiDigit c || c == '_'

/-- A letter or numeric character of any script, or an underscore. -/
def isWord (c : Char) : Bool :=
  if c.toNat < 0x80 then isAsciiWord c else inRanges c.toNat wordRanges

/-- The value of a decimal digit of any script. -/
def digitValue? (c : Char) : Option Nat :=
  if c.toNat < 0x80 then if isAsciiDigit c then some (c.toNat - 48) else none
  else (digitZeros.find? fun first => first ≤ c.toNat && c.toNat < first + 10).map (c.toNat - ·)

/-- A decimal digit of any script. -/
def isDigit (c : Char) : Bool := (digitValue? c).isSome

/-- The number written by decimal digits, most significant first. -/
def digitsValue (t : Text) : Nat := t.foldl (fun n c => 10 * n + (digitValue? c).getD 0) 0

/-- A character that is shown as it is inside quotes: no control, format, separator (other than the
plain space), private use or unassigned code point. -/
def isPrintable (c : Char) : Bool :=
  if c.toNat < 0x80 then 32 ≤ c.toNat && c.toNat < 127 else inRanges c.toNat printableRanges

/-- Every ASCII word character is a word character. -/
theorem isWord_of_isAsciiWord {c : Char} (hc : c.toNat < 0x80) (h : isAsciiWord c = true) :
    isWord c = true := by
  simp [isWord, hc, h]

end Stencil.Text
