import Stencil.Marker.Token
import Stencil.Template.Journal

/-!
# Markers to references

Marker tokens in markup become references to the paths they stand for. Longer tokens go first, so that
a token never takes a part of a longer one that begins like it. A token without a path, and a word that
looks like a token but is not bound, becomes empty text, or a failure when substitution is strict.
-/

namespace Stencil.Template

/-- The reference to the value at a path. -/
def reference (path : String) : Text := '\x7b' :: '\x7b' :: path.toList ++ ['\x7d', '\x7d']

/-- A character that can stand between the beginning and the end of a token. -/
def isTokenChar (c : Char) : Bool := Text.isAsciiWord c

/-- The longest part of a run, of at most `n` characters, behind which a word comes. -/
def longestBefore? (tail t : Text) : Nat → Option Text
  | 0 => if Text.startsWith tail t then some [] else none
  | n + 1 =>
    if Text.startsWith tail (t.drop (n + 1)) then some (t.take (n + 1))
    else longestBefore? tail t n

/-- A word that looks like a token at the front of a text. -/
def tokenLike? (shape : Marker.Shape) : Text.Matcher Text := fun t => do
  let lead := shape.lead.toList
  let tail := shape.tail.toList
  let rest ← Text.after? lead t
  let body ← longestBefore? tail rest (rest.takeWhile isTokenChar).length
  some (lead ++ body ++ tail, rest.drop (body.length + tail.length))

/-- Tokens by length, longest first; tokens of one length stay in order. -/
def byLength (tokens : List (String × Option String)) : List (String × Option String) :=
  tokens.mergeSort fun a b => b.1.length ≤ a.1.length

/-- What stands for a token without a path. -/
def removeUnresolved (strict : Bool) (token : String) : Work Unit :=
  if strict then throw (.unresolvedMarker token) else record [.unresolved token]

/-- A text with one token replaced. -/
def substituteToken (strict : Bool) (t : Text) (token : String) (path : Option String) :
    Work Text := do
  if Text.has token.toList t then
    match path with
    | some path =>
      record [.substituted token]
      pure (Text.replaceWord token.toList (reference path) t)
    | none =>
      removeUnresolved strict token
      pure (Text.replaceWord token.toList [] t)
  else pure t

/-- A text with tokens replaced one after the other. -/
def substituteEach (strict : Bool) : List (String × Option String) → Text → Work Text
  | [], t => pure t
  | (token, path) :: rest, t => do substituteEach strict rest (← substituteToken strict t token path)

/-- Takes out the words of a text that look like tokens. -/
def removeLeftovers (shape : Marker.Shape) (strict : Bool) (t : Text) : Work Text := do
  (Text.findAll (tokenLike? shape) t).forM fun token =>
    removeUnresolved strict (String.ofList token)
  pure (Text.replaceEach (tokenLike? shape) (fun _ => []) t)

/-- A text with all tokens replaced. -/
def substitute (shape : Marker.Shape) (strict : Bool) (tokens : List (String × Option String))
    (t : Text) : Work Text := do
  removeLeftovers shape strict (← substituteEach strict (byLength tokens) t)

end Stencil.Template
