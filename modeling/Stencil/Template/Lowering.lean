import Stencil.Condition
import Stencil.Template.Alternative
import Stencil.Template.Journal
import Stencil.Decimal.Literal

/-!
# From pseudo-tags to blocks

Conditionals and loops become blocks of a Handlebars template: first all conditionals, then all loops,
innermost ones first. One pass lowers every innermost occurrence of the text, and passes follow each
other until there is none left. All markup outside the pseudo-tags stays as it is.

* A conjunction becomes one block inside the other, a negated conjunct an `unless` block. The
  alternative is repeated in every block, so that it shows whenever some conjunct is false.
* A condition that is of no use hides its block: only the alternative remains, if there is one.
* In a loop over `p`, every path that starts with `p.[0]`, the item that stands for all items, starts
  with the item variable instead, or with `this`.
-/

namespace Stencil.Template

/-! ### Blocks -/

/-- Text inside double braces. -/
def braced (t : Text) : Text := '\x7b' :: '\x7b' :: t ++ ['\x7d', '\x7d']

/-- The tag between the two branches of a block. -/
def elseTag : Text := braced "else".toList

/-- The opening and closing tags of a block. -/
structure Block where
  /-- The opening tag. -/
  opening : Text
  /-- The closing tag. -/
  closing : Text
  deriving DecidableEq, Repr

/-- The block of a given kind over a path. -/
def Block.of (kind path : Text) : Block :=
  ⟨braced ('#' :: kind ++ ' ' :: path), braced ('/' :: kind)⟩

/-- The block for one conjunct. A conjunct with alternatives in it is kept as it is. -/
def Block.ofConjunct (conjunct : Text) : Block :=
  if Text.has Condition.orSign conjunct then .of "if".toList conjunct
  else
    let path := conjunct.dropWhile (· == '!')
    let isNegated := (conjunct.length - path.length) % 2 == 1
    .of (if isNegated then "unless".toList else "if".toList) (Text.trim path)

/-- The blocks for the conjuncts of a condition, outermost first. -/
def blocks (condition : Text) : List Block := (Condition.splitConjuncts condition).map .ofConjunct

/-- A text inside nested blocks. -/
def enclose (body : Text) : List Block → Text
  | [] => body
  | b :: rest => b.opening ++ enclose body rest ++ b.closing

/-- A text inside nested blocks, each with the same alternative. -/
def encloseWith (alternative body : Text) : List Block → Text
  | [] => body
  | b :: rest =>
    b.opening ++ encloseWith alternative body rest ++ elseTag ++ alternative ++ b.closing

/-! ### References -/

/-- The digits of a reference by a decimal number at the front of a text. -/
def decimalReference? : Text.Matcher Text
  | '&' :: '#' :: rest =>
    match rest.takeWhile Text.isAsciiDigit with
    | [] => none
    | digits => some (digits, rest.drop digits.length)
  | _ => none

/-- Refuses an attribute value with a reference by a number of too many digits. -/
def checkReferences (value : Text) : Except Failure Unit :=
  (Text.findAll decimalReference? value).forM Decimal.checkDigits

/-! ### Conditionals -/

/-- The condition that an attribute value holds: references are decoded, and braces around the whole,
which a marker token leaves behind, are dropped. -/
def decodeCondition (value : Option Text) : Text :=
  match value with
  | none => []
  | some raw =>
    let t := Text.decodeReferences raw
    match Text.after? ['\x7b', '\x7b'] t with
    | some rest =>
      if Text.endsWith ['\x7d', '\x7d'] rest then Text.trim (rest.take (rest.length - 2)) else t
    | none => t

/-- Reads the condition that an attribute value holds. -/
def readCondition (value : Option Text) : Except Failure Text := do
  checkReferences (value.getD [])
  pure (decodeCondition value)

/-- The text of a conditional with a usable condition. -/
def shownConditional (condition body : Text) : Text :=
  match alternative? body with
  | none => enclose body (blocks condition)
  | some a => encloseWith a.inside (a.before ++ a.after) (blocks condition)

/-- The text of a conditional whose condition is of no use. -/
def hiddenConditional (body : Text) : Text :=
  match alternative? body with
  | none => []
  | some a => a.inside

/-- The template text of a conditional. -/
def lowerConditional (c : Conditional) : Text :=
  match Condition.validateText (decodeCondition c.condition) with
  | .ok condition => shownConditional condition c.body
  | .error _ => hiddenConditional c.body

/-- The warning about alternatives, which a template cannot evaluate by itself. -/
def orWarning (condition : Text) : String :=
  "Condition " ++ Failure.shown (String.ofList condition) ++
    " uses '||', which Handlebars cannot evaluate natively"

/-- What happens when a conditional is lowered. -/
def conditionalEvents (c : Conditional) : List Event :=
  let decoded := decodeCondition c.condition
  match Condition.validateText decoded with
  | .ok condition =>
    (if Text.has Condition.orSign condition then [.warning (orWarning condition)] else []) ++
      [.conditional false]
  | .error failure =>
    (if decoded.isEmpty then [] else [.warning ("Hiding conditional block: " ++ failure.message)]) ++
      [.conditional true]

/-- Writes down what happens when a conditional is lowered, if its condition can be read. -/
def noteConditional (c : Conditional) : Work Unit := do
  let _ ← Work.ofResult (readCondition c.condition)
  record (conditionalEvents c)

/-! ### Loops -/

/-- Whether a path can start behind a character. -/
def startsPath : Option Char → Bool
  | none => true
  | some c => !(Text.isWord c || c == '.' || c == ']')

/-- The text with a word replaced wherever it starts a path; `skip` characters belong to the last
occurrence. -/
def replaceStarts (word replacement : Text) : (previous : Option Char) → (skip : Nat) → Text → Text
  | _, _, [] => []
  | _, skip + 1, c :: cs => replaceStarts word replacement (some c) skip cs
  | previous, 0, c :: cs =>
    if startsPath previous && Text.startsWith word (c :: cs) then
      replacement ++ replaceStarts word replacement (some c) (word.length - 1) cs
    else c :: replaceStarts word replacement (some c) 0 cs

/-- The path of the item that stands for all items of an array. -/
def representative (array : Text) : Text := array ++ ".[0]".toList

/-- A loop body with the item named by the loop. -/
def nameItem (array name body : Text) : Text :=
  replaceStarts (representative array) name none 0 body

/-- The name of the item in a loop body. -/
def itemName (itemVar : Option Text) : Text := itemVar.getD "this".toList

/-- The opening tag of a loop block. -/
def loopOpening (array : Text) : Option Text → Text
  | some name => braced ("#each ".toList ++ array ++ " as |".toList ++ name ++ ['|'])
  | none => braced ("#each ".toList ++ array)

/-- The template text of a loop. -/
def lowerLoop (l : Loop) : Text :=
  let array := Text.decodeReferences l.array
  let itemVar := (l.itemVar.map Text.decodeReferences).filter fun name => !name.isEmpty
  loopOpening array itemVar ++ nameItem array (itemName itemVar) l.body ++ braced "/each".toList

/-- Writes down that a loop is lowered, if the names of its array and item can be read. -/
def noteLoop (l : Loop) : Work Unit := do
  Work.ofResult (checkReferences l.array)
  Work.ofResult (checkReferences (l.itemVar.getD []))
  record [.loop]

/-! ### Passes -/

/-- One pass over a text: every occurrence lowered, with the occurrences, or nothing if there is none. -/
def pass? {α : Type} (m : Text.Matcher α) (lower : α → Text) (t : Text) : Option (Text × List α) :=
  let pieces := Text.pieces m t
  let found := pieces.filterMap Text.Piece.found?
  if found.isEmpty then none else some (pieces.flatMap (Text.Piece.text lower), found)

/-- Passes until there is no occurrence, at most `bound` of them: the text, and all occurrences in the
order in which they are lowered. -/
def settle {α : Type} (m : Text.Matcher α) (lower : α → Text) :
    (bound : Nat) → Text → Text × List α
  | 0, t => (t, [])
  | bound + 1, t =>
    match pass? m lower t with
    | none => (t, [])
    | some (t', now) =>
      let (result, later) := settle m lower bound t'
      (result, now ++ later)

section Unlimited

variable {α : Type} (m : Text.Matcher α) (lower : α → Text)

/-- Passes until there is no occurrence, however many they are, and nothing if they never end. -/
def settleAll? (t : Text) : Option (Text × List α) :=
  match pass? m lower t with
  | none => some (t, [])
  | some (t', now) => do
    -- a call written as a term would put its place in the file into the definition
    let (result, later) ← (by apply settleAll?; exact t' : Option (Text × List α))
    some (result, now ++ later)
partial_fixpoint

end Unlimited

/-- A text with all conditionals lowered, and the conditionals. A pass uses up a pseudo-tag for each one
that it may form anew, so a text needs no more passes than it has characters. -/
def lowerConditionals (t : Text) : Text × List Conditional :=
  settle conditional? lowerConditional (t.length + 1) t

/-- A text with all loops lowered, and the loops. No more passes than the text has characters are needed,
unless references hide further loops in the names of loops: then the passes go on, maybe for ever. -/
def lowerLoops (t : Text) : Text × List Loop :=
  let near := settle loop? lowerLoop (t.length + 1) t
  match pass? loop? lowerLoop near.1 with
  | none => near
  | some _ =>
    ((settleAll? loop? lowerLoop near.1).map fun (result, later) =>
      (result, near.2 ++ later)).getD near

/-- A text with all conditionals and then all loops lowered. -/
def lowered (t : Text) : Text := (lowerLoops (lowerConditionals t).1).1

/-- Lowers all conditionals and loops of a text and writes down what happens. -/
def lowerTags (t : Text) : Work Text := do
  (lowerConditionals t).2.forM noteConditional
  (lowerLoops (lowerConditionals t).1).2.forM noteLoop
  pure (lowered t)

end Stencil.Template
