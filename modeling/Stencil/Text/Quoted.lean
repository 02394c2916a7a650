import Stencil.Text.Word

/-!
# Quoted text

A text in quotes, as messages and displayed containers show it. The quotes are single ones, unless
the text holds a single quote and no double quote. A backslash, the quote in use and the controls
tab, line feed and carriage return are escaped by a backslash, and any other character that is not
printable by its code point in two, four or eight hexadecimal digits.
-/

namespace Stencil.Text

/-- A hexadecimal digit in lower case. -/
def hexDigit (n : Nat) : Char := if n < 10 then Char.ofNat (48 + n) else Char.ofNat (87 + n)

/-- The last `width` hexadecimal digits of a number. -/
def hexDigits : (width n : Nat) → Text
  | 0, _ => []
  | width + 1, n => hexDigits width (n / 16) ++ [hexDigit (n % 16)]

/-- The quote that a text is written in. -/
def quoteFor (t : Text) : Char := if t.contains '\'' && !t.contains '"' then '"' else '\''

/-- The escape of a code point that cannot be shown. -/
def codeEscape (n : Nat) : Text :=
  if n < 0x100 then '\\' :: 'x' :: hexDigits 2 n
  else if n < 0x10000 then '\\' :: 'u' :: hexDigits 4 n
  else '\\' :: 'U' :: hexDigits 8 n

/-- A character inside quotes; `shown` tells which characters need no escape. -/
def quotedChar (shown : Char → Bool) (quote c : Char) : Text :=
  if c = quote || c = '\\' then ['\\', c]
  else if c = '\t' then ['\\', 't']
  else if c = '\n' then ['\\', 'n']
  else if c = '\r' then ['\\', 'r']
  else if shown c then [c]
  else codeEscape c.toNat

/-- A text in quotes. -/
def quoted (t : Text) : Text :=
  let quote := quoteFor t
  quote :: t.flatMap (quotedChar isPrintable quote) ++ [quote]

/-- A sequence of bytes in quotes, each byte given as the character of its code. Only ASCII is
shown. -/
def quotedBytes (t : Text) : Text :=
  let quote := quoteFor t
  'b' :: quote :: t.flatMap (quotedChar (fun c => c.toNat < 0x7F && isPrintable c) quote) ++ [quote]

end Stencil.Text
