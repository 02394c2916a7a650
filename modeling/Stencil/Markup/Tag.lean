import Stencil.Markup.Escape
import Stencil.Failure
import Stencil.Text.Case

/-!
# Tags

The start and end tags of elements with their attributes. A property becomes an attribute under the
name that `attributeName` gives it; some properties are no attributes at all, and one holds the
markup inside the element. Void elements close themselves and have no end tag.
-/

namespace Stencil.Markup

/-! ### Names -/

/-- The elements that have no content. -/
def voidElements : List String :=
  ["area", "base", "br", "col", "embed", "hr", "img", "input", "link", "meta", "param", "source",
    "track", "wbr"]

/-- Whether an element has no content. -/
def isVoid (tag : String) : Bool := voidElements.contains tag

/-- The properties whose attribute has a name of its own. -/
def attributeAliases : List (String × String) :=
  [("class_name", "class"), ("className", "class"), ("class_", "class"), ("html_for", "for"),
    ("htmlFor", "for"), ("http_equiv", "http-equiv"), ("httpEquiv", "http-equiv")]

/-- The properties that are never written. -/
def reservedProperties : List String := ["children", "key", "ref"]

/-- The properties that hold the markup inside an element. -/
def innerProperties : List String := ["dangerously_set_inner_html", "dangerouslySetInnerHTML"]

/-- A text with every underscore as a hyphen. -/
def hyphenated (t : Text) : Text := t.map fun c => if c = '_' then '-' else c

/-- The attribute of a property: without underscores at the end, and hyphenated. -/
def attributeName (property : String) : String :=
  match attributeAliases.lookup property with
  | some name => name
  | none =>
    String.ofList (hyphenated ((property.toList.reverse.dropWhile (· == '_')).reverse))

/-- A hyphen before every capital that follows a small letter or digit. -/
def hyphenateCapitals : (previous : Option Char) → Text → Text
  | _, [] => []
  | previous, c :: cs =>
    let isBoundary := 'A' ≤ c && c ≤ 'Z' &&
      (previous.map fun p => ('a' ≤ p && p ≤ 'z') || Text.isAsciiDigit p).getD false
    (if isBoundary then ['-', c] else [c]) ++ hyphenateCapitals (some c) cs

/-- The style property that a name stands for. -/
def styleProperty (name : Text) : Text :=
  if Text.startsWith ['-', '-'] name then name
  else Text.lower (hyphenated (hyphenateCapitals none name))

/-! ### Attributes -/

/-- Whether a style value says that the property is not set. -/
def isUnset : Value → Bool
  | .null => true
  | .bool b => !b
  | .str s | .raw s => s.isEmpty
  | _ => false

/-- A style: a mapping as `property:value` pairs, anything else as its text. -/
def renderStyle : Value → Text
  | .map entries =>
    Text.joinWith [';'] ((entries.filter fun entry => !isUnset entry.2).map fun (name, value) =>
      styleProperty name.display ++ ':' :: value.display)
  | v => v.display

/-- Whether a value is written as an attribute at all. -/
def isWritten : Value → Bool
  | .null => false
  | .bool b => b
  | v => !v.isClosure

/-- An attribute with its leading space. -/
def renderAttribute (name : String) (value : Value) : Text :=
  let written : Text := ' ' :: name.toList ++ ['=', '"']
  match value with
  | .bool true => written ++ ['"']
  | _ => written ++ escapeAttribute value ++ ['"']

/-- The attribute of a property, or nothing if there is none. -/
def renderProperty (property : String) (value : Value) : Text :=
  if reservedProperties.contains property || innerProperties.contains property then []
  else if !isWritten value then []
  else
    let name := attributeName property
    if name = "style" then
      let style := renderStyle value
      if style.isEmpty then [] else renderAttribute name (.str (String.ofList style))
    else renderAttribute name value

/-- The attributes of all properties. -/
def renderAttributes : Mapping → Except Failure Text
  | [] => .ok []
  | (key, value) :: rest =>
    match key.text? with
    | some property => do pure (renderProperty property value ++ (← renderAttributes rest))
    | none =>
      if isWritten value then .error (.noMember key.typeName "rstrip")
      else renderAttributes rest

/-! ### Tags -/

/-- The markup that a property sets as the content of an element. -/
def innerMarkup? (props : Mapping) : Option Text :=
  innerProperties.findSome? fun property =>
    match props.at? property with
    | some (.map entries) => (Mapping.at? "__html" entries).map Value.display
    | _ => none

/-- The start tag of an element. -/
def startTag (tag : String) (props : Mapping) : Except Failure Text := do
  let attributes ← renderAttributes props
  pure ('<' :: tag.toList ++ attributes ++ if isVoid tag then ['/', '>'] else ['>'])

/-- The end tag of an element, which a void element does not have. -/
def endTag (tag : String) : Text :=
  if isVoid tag then [] else '<' :: '/' :: tag.toList ++ ['>']

end Stencil.Markup
