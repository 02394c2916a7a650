import Stencil.Text.Basic

/-!
# White space

The characters that trimming removes and that separate attributes in a tag: the white space of
Unicode together with the four information separators U+001C to U+001F.
-/

namespace Stencil.Text

/-- White space: controls such as tab and line feed, the information separators, next line, and
the space separators of all widths. The zero width space is not among them. -/
def isBlank (c : Char) : Bool :=
  let n := c.toNat
  (9 ≤ n && n ≤ 13) || (28 ≤ n && n ≤ 32) || n == 0x85 || n == 0xA0 || n == 0x1680 ||
    (0x2000 ≤ n && n ≤ 0x200A) || n == 0x2028 || n == 0x2029 || n == 0x202F || n == 0x205F ||
    n == 0x3000

/-- The text without white space at its front. -/
def trimLeft (t : Text) : Text := t.dropWhile isBlank

/-- The text without white space at its end. -/
def trimRight (t : Text) : Text := (t.reverse.dropWhile isBlank).reverse

/-- The text without white space at either end. -/
def trim (t : Text) : Text := trimRight (trimLeft t)

/-- At least one white space character, and the text behind the whole run of them. -/
def blanks? : Text → Option Text
  | c :: cs => if isBlank c then some (cs.dropWhile isBlank) else none
  | [] => none

end Stencil.Text
