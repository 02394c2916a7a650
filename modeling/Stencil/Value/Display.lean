import Stencil.Value.Mapping
import Stencil.Text.Quoted
import Stencil.Decimal.Number

/-!
# The text of a value

`Value.display` is the text that stands for a value in markup and messages. A text stands for itself,
and inside a container it is quoted. Lists are written in brackets, tuples in parentheses, with a
comma after a single item, and mappings in braces.
-/

namespace Stencil

/-- The word for a helper type. -/
def Helper.word : Helper → String
  | .ifThen => "if"
  | .otherwise => "else"
  | .each => "each"
  | .val => "val"
  | .provider => "provider"

/-- A helper type on its own. -/
def Helper.text (kind : Helper) : Text := "HelperKind.".toList ++ kind.word.toUpper.toList

/-- A helper type inside a container: with its word. -/
def Helper.inspect (kind : Helper) : Text :=
  '<' :: kind.text ++ [':', ' '] ++ Text.quoted kind.word.toList ++ ['>']

namespace Value

/-- Items in parentheses. -/
def tupleText : List Text → Text
  | [item] => '(' :: item ++ [',', ')']
  | items => '(' :: Text.joinWith [',', ' '] items ++ [')']

mutual

/-- The text of a value inside a container or a message, where texts are quoted. -/
def inspect : Value → Text
  | .null => "None".toList
  | .bool b => if b then "True".toList else "False".toList
  | .int i => Decimal.intText i
  | .float x => Decimal.floatText x
  | .str s => Text.quoted s.toList
  | .raw s => Text.quoted s.toList
  | .bytes s => Text.quotedBytes s.toList
  | .absent => "ABSENT".toList
  | .fragmentType => "Fragment".toList
  | .helper kind => kind.inspect
  | .list items => '[' :: Text.joinWith [',', ' '] (inspectAll items) ++ [']']
  | .tuple items => tupleText (inspectAll items)
  | .generator _ _ => "<generator>".toList
  | .set [] => "set()".toList
  | .set (v :: rest) =>
    '\x7b' :: Text.joinWith [',', ' '] (inspect v :: inspectAll rest) ++ ['\x7d']
  | .date d => d.inspect
  | .moment m => m.inspect
  | .map entries => '\x7b' :: Text.joinWith [',', ' '] (inspectEntries entries) ++ ['\x7d']
  | .object _ => "<object>".toList
  | .element type props children =>
    "Element(type=".toList ++ inspect type ++ ", props=\x7b".toList ++
      Text.joinWith [',', ' '] (inspectEntries props) ++ "\x7d, children=".toList ++
      tupleText (inspectAll children) ++ [')']
  | .closure name _ _ _ => "<fn ".toList ++ name.toList ++ ['>']

/-- The texts of the items of a container. -/
def inspectAll : List Value → List Text
  | [] => []
  | v :: rest => inspect v :: inspectAll rest

/-- The texts of the entries of a mapping. -/
def inspectEntries : List (Value × Value) → List Text
  | [] => []
  | (k, v) :: rest => (inspect k ++ [':', ' '] ++ inspect v) :: inspectEntries rest

end

/-- The text of a value on its own. -/
def display : Value → Text
  | .str s => s.toList
  | .raw s => s.toList
  | .helper kind => kind.text
  | .date d => d.text
  | .moment m => m.text
  | v => v.inspect

/-- The text of a value on its own, as a string. -/
def displayString (v : Value) : String := String.ofList v.display

@[simp] theorem display_str (s : String) : (Value.str s).display = s.toList := rfl

@[simp] theorem display_raw (s : String) : (Value.raw s).display = s.toList := rfl

/-- The name of the kind of value, as messages show it. -/
def typeName : Value → String
  | .null => "NoneType"
  | .bool _ => "bool"
  | .int _ => "int"
  | .float _ => "float"
  | .str _ => "str"
  | .raw _ => "RawMarkup"
  | .bytes _ => "bytes"
  | .absent => "_Absent"
  | .fragmentType => "_FragmentType"
  | .helper _ => "HelperKind"
  | .list _ => "list"
  | .tuple _ => "tuple"
  | .generator _ _ => "generator"
  | .set _ => "set"
  | .date _ => "datetime.date"
  | .moment _ => "datetime.datetime"
  | .map _ => "dict"
  | .object _ => "object"
  | .element .. => "Element"
  | .closure .. => "function"

end Value

end Stencil
