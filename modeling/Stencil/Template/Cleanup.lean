import Stencil.Template.PseudoTag

/-!
# Cleanup

Markup that has no place in a template: ordinary comments, and attributes that only the rendering host
needs. A comment that begins with a bracket is an instruction to some mail clients and stays.
-/

namespace Stencil.Template

/-- An ordinary comment at the front of a text. -/
def comment? : Text.Matcher Unit := fun t =>
  match Text.after? "<!--".toList t with
  | some ('[' :: _) => none
  | some rest => (Text.cut? "-->".toList rest).map fun (_, after) => ((), after)
  | none => none

/-- A text without its ordinary comments. -/
def stripComments (t : Text) : Text := Text.replaceEach comment? (fun _ => []) t

/-- The text behind one of some attributes at the front of a text. -/
def namedAttribute? (names : List Text) (t : Text) : Option Text :=
  names.findSome? fun name => do
    let rest ← Text.after? (name ++ ['=', '"']) t
    (quotedValue? rest).map Prod.snd

/-- The text behind at least one and at most `n` white space characters and one of some attributes;
as much white space as possible is taken first. -/
def spacedAttribute? (names : List Text) (t : Text) : Nat → Option Text
  | 0 => none
  | n + 1 => (namedAttribute? names (t.drop (n + 1))).or (spacedAttribute? names t n)

/-- One of some attributes at the front of a text, with the white space before it. -/
def hostAttribute? (names : List Text) : Text.Matcher Unit := fun t =>
  (spacedAttribute? names t (t.takeWhile Text.isBlank).length).map fun rest => ((), rest)

/-- Whether names of attributes name none. -/
def namesNothing : List String → Bool
  | [] => true
  | [name] => name.isEmpty
  | _ => false

/-- A text without some attributes. -/
def stripAttributes (names : List String) (t : Text) : Text :=
  if namesNothing names then t
  else Text.replaceEach (hostAttribute? (names.map String.toList)) (fun _ => []) t

end Stencil.Template
