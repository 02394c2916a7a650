import Stencil.Path

/-!
# Marker tokens

A marker token is a word that stands for a value while a component is rendered for a template. It is
made from the path of the value: every character of the path that is no ASCII letter or digit becomes
an underscore, and the word gets a fixed beginning and end, by which it is recognised later.
-/

namespace Stencil.Marker

/-- The beginning and the end of marker tokens. -/
structure Shape where
  /-- The beginning. -/
  lead : String := "__PROP_"
  /-- The end. -/
  tail : String := "__"
  deriving DecidableEq, Repr

/-- A character that stays as it is inside a token. -/
def isSafe (c : Char) : Bool := Text.isAsciiLetter c || Text.isAsciiDigit c

/-- The part of a token that is made from a path. -/
def tokenBody (path : Text) : Text := path.map fun c => if isSafe c then c else '_'

/-- The token for a path. -/
def Shape.token (shape : Shape) (path : String) : String :=
  shape.lead ++ String.ofList (tokenBody path.toList) ++ shape.tail

end Stencil.Marker
