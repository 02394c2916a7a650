import Stencil.Yaml.Cursor
import Stencil.Yaml.Kind
import Stencil.Value.Display

/-!
# Writing YAML

A value as a YAML document in lines. The entries of a mapping stand in the order of their keys, two
columns further in than what holds them, and the items of a list stand right below its key. Empty lists
and mappings are written as brackets.

A text is written plain if it reads back as itself, else between single quotes, and between double quotes
where those do not suffice. Words behind the eightieth column go to the next line.
-/

namespace Stencil.Yaml

/-- The column behind which a text is folded. -/
def width : Nat := 80

/-- A line break and some spaces. -/
def newLine (indent : Nat) : Text := '\n' :: List.replicate indent ' '

/-! ### What a text allows -/

/-- A character that begins a line in a written scalar. -/
def isBreak (c : Char) : Bool := isLineEnd c && c != '\r'

/-- A character that is only written as an escape. -/
def isSpecial (c : Char) : Bool :=
  let n := c.toNat
  !(c == '\n' || (0x20 ≤ n && n ≤ 0x7E) || n == 0x85 || (0xA0 ≤ n && n ≤ 0xD7FF) ||
    (0xE000 ≤ n && n ≤ 0xFFFD && n != 0xFEFF) || (0x10000 ≤ n && n < 0x10FFFF))

/-- Whether two characters that follow each other pass two tests. -/
def hasPair (p q : Char → Bool) : Text → Bool
  | a :: b :: rest => (p a && q b) || hasPair p q (b :: rest)
  | _ => false

/-- Whether some character is a sign of its own: a colon before a gap, or a number sign behind one. -/
def hasInnerSign (previous : Option Char) : Text → Bool
  | [] => false
  | c :: rest =>
    (previous.isSome && c == ':' && endsWord rest) ||
      ((previous.map isGap).getD false && c == '#') || hasInnerSign (some c) rest

/-- Whether a text begins with a sign. -/
def startsSign (t : Text) : Bool :=
  match t with
  | [] => false
  | c :: rest =>
    t.take 3 == ['-', '-', '-'] || t.take 3 == ['.', '.', '.'] ||
      "#,[]\x7b\x7d&*!|>'\"%@\x60".toList.contains c ||
      ((c == '?' || c == ':' || c == '-') && endsWord rest)

/-- Whether white space stands at one end of a text. -/
def hasOuterSpace (t : Text) : Bool :=
  let isSpace (c : Char) : Bool := c == ' ' || isBreak c
  (t.head?.map isSpace).getD false || (t.getLast?.map isSpace).getD false

/-- Whether quotes without escapes can hold a text. -/
def allowsSingle (t : Text) : Bool :=
  !(t.any isSpecial || hasPair isBreak (· == ' ') t || hasPair (· == ' ') isBreak t)

/-- Whether a text can stand without quotes. -/
def allowsPlain (t : Text) : Bool :=
  Kind.of t == .text && allowsSingle t && !hasOuterSpace t && !t.any isBreak && !startsSign t &&
    !hasInnerSign none t

/-! ### Scalars -/

/-- A text in which single spaces behind the last column become line breaks; `isFirst` holds at the
front of the text, where a space stays. -/
def foldWords (indent : Nat) (isQuoted : Bool) :
    (isFirst afterSpace : Bool) → (column : Nat) → Text → Text
  | _, _, _, [] => []
  | isFirst, afterSpace, column, c :: cs =>
    let isEdge := isQuoted && (isFirst || cs.isEmpty)
    if c == ' ' && !afterSpace && cs.head? != some ' ' && width < column && !isEdge then
      newLine indent ++ foldWords indent isQuoted false false indent cs
    else if isQuoted && c == '\'' then
      '\'' :: '\'' :: foldWords indent isQuoted false false (column + 2) cs
    else c :: foldWords indent isQuoted false (c == ' ') (column + 1) cs

/-- A text between single quotes: a line feed is written as two, and the lines are indented. -/
def quoteLines (indent : Nat) : (afterBreak : Bool) → Text → Text
  | true, [] => List.replicate indent ' '
  | false, [] => []
  | afterBreak, c :: cs =>
    if isBreak c then
      (if c == '\n' && !afterBreak then ['\n', '\n'] else [c]) ++ quoteLines indent true cs
    else
      (if afterBreak then List.replicate indent ' ' else []) ++
        (if c == '\'' then ['\'', '\''] else [c]) ++ quoteLines indent false cs

/-- The letters of escapes. -/
def escapeLetters : List (Char × Char) :=
  [('\x00', '0'), ('\x07', 'a'), ('\x08', 'b'), ('\t', 't'), ('\n', 'n'), ('\x0b', 'v'),
    ('\x0c', 'f'), ('\r', 'r'), ('\x1b', 'e'), ('"', '"'), ('\\', '\\'), ('\x85', 'N'),
    ('\xa0', '_'), ('\u2028', 'L'), ('\u2029', 'P')]

/-- A code in hexadecimal digits, in upper case. -/
def upperHex (digits n : Nat) : Text :=
  (Text.hexDigits digits n).map fun c =>
    if 'a' ≤ c && c ≤ 'f' then Char.ofNat (c.toNat - 32) else c

/-- The escape of a character. -/
def escapeOf (c : Char) : Text :=
  let n := c.toNat
  match escapeLetters.lookup c with
  | some letter => ['\\', letter]
  | none =>
    if n ≤ 0xFF then '\\' :: 'x' :: upperHex 2 n
    else if n ≤ 0xFFFF then '\\' :: 'u' :: upperHex 4 n
    else '\\' :: 'U' :: upperHex 8 n

/-- A character that stands for itself between double quotes. -/
def isShown (c : Char) : Bool :=
  let n := c.toNat
  c != '"' && c != '\\' &&
    ((0x20 ≤ n && n ≤ 0x7E) || (0xA0 ≤ n && n ≤ 0xD7FF && n != 0x2028 && n != 0x2029) ||
      (0xE000 ≤ n && n ≤ 0xFFFD && n != 0xFEFF))

/-- A text between double quotes. A line ends behind a backslash, and another one stands before a space
at the front of a line. -/
def escapeText (indent : Nat) (mayFold : Bool) :
    (isFirst afterEscape : Bool) → (column : Nat) → Text → Text
  | _, _, _, [] => []
  | isFirst, afterEscape, column, c :: cs =>
    let isInner := mayFold && !isFirst && !cs.isEmpty
    if isShown c then
      if isInner && (c == ' ' || afterEscape) && width < column then
        '\\' :: newLine indent ++ (if c == ' ' then ['\\', c] else [c]) ++
          escapeText indent mayFold false false (indent + if c == ' ' then 2 else 1) cs
      else c :: escapeText indent mayFold false false (column + 1) cs
    else
      let escape := escapeOf c
      if isInner && width < column + escape.length - 1 then
        let isSpace := cs.head? == some ' '
        escape ++ '\\' :: newLine indent ++ (if isSpace then ['\\'] else []) ++
          escapeText indent mayFold false true (indent + if isSpace then 1 else 0) cs
      else escape ++ escapeText indent mayFold false true (column + escape.length) cs

/-- A text as a scalar that begins at a column and goes on at an indentation; a key stands on one
line. -/
def scalarText (isKey : Bool) (indent column : Nat) (t : Text) : Text :=
  if allowsPlain t then if isKey then t else foldWords indent false true false column t
  else if allowsSingle t && !(isKey && t.any isBreak) then
    let inside :=
      if t.any isBreak || isKey then quoteLines indent false t
      else foldWords indent true true false (column + 1) t
    '\'' :: inside ++ ['\'']
  else '"' :: escapeText indent (!isKey) true false (column + 1) t ++ ['"']

/-- A floating point number: with a point also before an exponent. -/
def fractionText (x : Float) : Text :=
  if x.isNaN then ".nan".toList
  else if x.isInf then (if x < 0.0 then "-.inf" else ".inf").toList
  else
    let t := Decimal.floatText x
    if t.contains '.' then t
    else
      match Text.cut? ['e'] t with
      | some (digits, exponent) => digits ++ ".0e".toList ++ exponent
      | none => t

/-- A value without parts as a scalar. -/
def leafText (isKey : Bool) (indent column : Nat) (v : Value) : Text :=
  match v with
  | .null => "null".toList
  | .bool b => (if b then "true" else "false").toList
  | .int i => Decimal.intText i
  | .float x => fractionText x
  | _ => scalarText isKey indent column v.display

/-! ### Lists and mappings -/

/-- Whether a key stands before its colon on one line. -/
def isSimpleKey (key : Text) : Bool := !key.isEmpty && key.length < 123 && !key.any isBreak

/-- A key as it is written at an indentation, up to its colon. -/
def keyText (indent : Nat) (key : Value) : Text :=
  let t := key.display
  if isSimpleKey t then leafText true indent indent key ++ [':']
  else '?' :: ' ' :: leafText false (indent + 2) (indent + 2) key ++ newLine indent ++ [':']

/-- Entries in the order of their keys. -/
def sortedLines (lines : List (String × Text)) : List Text :=
  (lines.mergeSort fun a b => a.1 ≤ b.1).map Prod.snd

/-- What stands behind a key or dash: how it follows, and its text. -/
inductive Lines where
  /-- Behind a space. -/
  | inline (text : Text)
  /-- Items, which stand on lines of their own. -/
  | items (texts : List Text)
  /-- Entries, which stand on lines of their own. -/
  | entries (texts : List Text)

/-- Lines at an indentation. -/
def stacked (indent : Nat) (texts : List Text) : Text := Text.joinWith (newLine indent) texts

mutual

/-- The lines of a value that stands in something at an indentation, behind a column; `itemIndent` is
where its items would stand. -/
def linesOf (indent itemIndent column : Nat) : Value → Lines
  | .list items | .tuple items =>
    if items.isEmpty then .inline ['[', ']'] else .items (itemLines itemIndent items)
  | .map entries =>
    if entries.isEmpty then .inline ['\x7b', '\x7d']
    else .entries (sortedLines (entryLines (indent + 2) entries))
  | v => .inline (leafText false (indent + 2) column v)

/-- The items of a list at an indentation. -/
def itemLines (indent : Nat) : List Value → List Text
  | [] => []
  | v :: rest =>
    let text :=
      match linesOf indent (indent + 2) (indent + 2) v with
      | .inline text => text
      | .items texts | .entries texts => stacked (indent + 2) texts
    ('-' :: ' ' :: text) :: itemLines indent rest

/-- The entries of a mapping at an indentation, with their keys. -/
def entryLines (indent : Nat) : List (Value × Value) → List (String × Text)
  | [] => []
  | (key, v) :: rest =>
    let name := keyText indent key
    let isSimple := isSimpleKey key.display
    let column := if isSimple then indent + name.length + 1 else indent + 2
    let text :=
      match linesOf indent (if isSimple then indent else indent + 2) column v with
      | .inline text => ' ' :: text
      | .items texts =>
        if isSimple then newLine indent ++ stacked indent texts
        else ' ' :: stacked (indent + 2) texts
      | .entries texts =>
        if isSimple then newLine (indent + 2) ++ stacked (indent + 2) texts
        else ' ' :: stacked (indent + 2) texts
    (key.displayString, name ++ text) :: entryLines indent rest

end

/-- Writes a document, without a line break at its end. -/
def write (v : Value) : Text :=
  match v with
  | .map entries =>
    if entries.isEmpty then ['\x7b', '\x7d'] else stacked 0 (sortedLines (entryLines 0 entries))
  | .list items | .tuple items =>
    if items.isEmpty then ['[', ']'] else stacked 0 (itemLines 0 items)
  | v => leafText false 2 0 v

end Stencil.Yaml
