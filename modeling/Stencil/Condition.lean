import Stencil.Path
import Stencil.Text.Length

/-!
# Conditions

A condition is a text over a small grammar without parentheses: alternatives between `||`, each of
them conjuncts between `&&`, each of those a path behind any number of `!`. White space around the
parts is free.

Two readings of it live here. `Condition.evaluate` decides any text whose paths can be read against
data, for a preview: it takes a text apart at the first sign that it has, and goes on with the parts.
`Condition.validate` accepts the texts that can be put into a template, those in which every term is a
usable path.
-/

namespace Stencil.Condition

/-- The sign between alternatives. -/
def orSign : Text := "||".toList

/-- The sign between conjuncts. -/
def andSign : Text := "&&".toList

/-- The alternatives of a condition. -/
def alternatives (t : Text) : List Text := Text.splitAt orSign t

/-- The conjuncts of a condition. -/
def conjuncts (t : Text) : List Text := Text.splitAt andSign t

/-- The trimmed conjuncts of a condition, one when there is no sign between them. -/
def splitConjuncts (t : Text) : List Text := (conjuncts t).map Text.trim

/-! ### Evaluation -/

/-- **The truth of a condition** in which `look` decides what is no sign. Signs between alternatives come
first, those between conjuncts second, and a sign in front last; every part is decided, in order. -/
def decideWith {m : Type → Type} [Monad m] (look : Text → m Bool) (t : Text) : m Bool :=
  let trimmed := Text.trim t
  if _hor : Text.has orSign trimmed then do
    let results ← (alternatives trimmed).attach.mapM fun part => decideWith look (Text.trim part.1)
    pure (results.any id)
  else if _hand : Text.has andSign trimmed then do
    let results ← (conjuncts trimmed).attach.mapM fun part => decideWith look (Text.trim part.1)
    pure (results.all id)
  else
    match _hsign : Text.after? ['!'] trimmed with
    | some rest => do pure (!(← decideWith look (Text.trim rest)))
    | none => look trimmed
termination_by t.length
decreasing_by
  · have hpart := Text.length_lt_of_mem_splitAt (by decide) _hor part.2
    have htrimmed : trimmed.length ≤ t.length := Text.length_trim_le t
    have hshort := Text.length_trim_le part.1
    omega
  · have hpart := Text.length_lt_of_mem_splitAt (by decide) _hand part.2
    have htrimmed : trimmed.length ≤ t.length := Text.length_trim_le t
    have hshort := Text.length_trim_le part.1
    omega
  · have htrimmed : trimmed.length ≤ t.length := Text.length_trim_le t
    have hshort := Text.length_trim_le rest
    rw [Text.eq_append_of_after? _hsign, List.length_append, List.length_singleton] at htrimmed
    omega

/-- The truth of the value at a path. -/
def lookUp (data : Value) (path : Text) : Except Failure Bool :=
  (data.lookup path).map Value.isTruthy

/-- The truth of a condition. A condition that is no text is true by itself, and without data every
text is true, so that a preview without data shows every branch. -/
def evaluate (condition data : Value) : Except Failure Bool :=
  match condition.text? with
  | some s => if data.isNothing then .ok true else decideWith (lookUp data) s.toList
  | none => .ok condition.holds

/-! ### Validation -/

/-- A character that may stand in a path term. -/
def isTermChar (c : Char) : Bool :=
  !(Text.isBlank c || c == '!' || c == '&' || c == '|' || c == '\x7b' || c == '\x7d' || c == '(' ||
    c == ')' || c == '<' || c == '>' || c == '"' || c == '\'')

/-- Whether a text can be looked up in a template. -/
def isTerm (t : Text) : Bool := !t.isEmpty && t.all isTermChar

/-- The text of a conjunct without its signs. -/
def term (t : Text) : Text := Text.trim ((Text.trim t).dropWhile (· == '!'))

/-- The path terms of a condition, in order. -/
def terms (t : Text) : List Text :=
  (alternatives t).flatMap fun alternative => (conjuncts alternative).map term

/-- The trimmed text of a condition all of whose terms are usable. -/
def validateText (t : Text) : Except Failure Text :=
  let trimmed := Text.trim t
  if trimmed.isEmpty then .error (.emptyCondition (.str (String.ofList t)))
  else
    match (terms trimmed).filter fun t => !isTerm t with
    | [] => .ok trimmed
    | bad => .error (.unusableTerms (String.ofList trimmed) (bad.map String.ofList))

/-- The text of a condition that can be put into a template. -/
def validate (condition : Value) : Except Failure Text :=
  match condition with
  | .str s => validateText s.toList
  | .raw s => (validateText s.toList).mapError fun
    | .emptyCondition _ => .emptyCondition condition
    | failure => failure
  | _ => .error (.emptyCondition condition)

end Stencil.Condition
