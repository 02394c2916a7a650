import Stencil.Text.Basic
import Stencil.Text.Word
import Stencil.Text.Table.Case

/-!
# Upper and lower case

Case mapping of whole texts. Two characters need more than a table of single characters: the
capital I with dot, whose lower case is two characters, and the capital sigma, which ends a word as
`ς` and stands inside one as `σ`.
-/

namespace Stencil.Text

/-- The other case of a code point, if one of the runs covers it. -/
def shiftCase (n : Nat) : List CaseRun → Nat
  | [] => n
  | run :: rest =>
    if run.first ≤ n && n ≤ run.last && (n - run.first) % run.step == 0 then
      ((n : Int) + run.shift).toNat
    else shiftCase n rest

/-- The lower case of a single character, sigma as inside a word. -/
def lowerChar (c : Char) : Text :=
  if c.toNat < 0x80 then
    if 'A' ≤ c && c ≤ 'Z' then [Char.ofNat (c.toNat + 32)] else [c]
  else if c.toNat = 0x130 then ['i', Char.ofNat 0x307]
  else [Char.ofNat (shiftCase c.toNat lowerRuns)]

/-- The upper case of a single character. -/
def upperChar (c : Char) : Text :=
  if c.toNat < 0x80 then
    if 'a' ≤ c && c ≤ 'z' then [Char.ofNat (c.toNat - 32)] else [c]
  else
    match upperSequences.lookup c.toNat with
    | some codes => codes.map Char.ofNat
    | none => [Char.ofNat (shiftCase c.toNat upperRuns)]

/-- Whether the nearest character that is not looked past has case. -/
def meetsCased (t : Text) : Bool :=
  match t.find? fun c => !inRanges c.toNat caseIgnorableRanges with
  | some c => inRanges c.toNat casedRanges
  | none => false

/-- Lower case from left to right; `before` holds the characters already passed, last one first. -/
def lowerFrom (before : Text) : Text → Text
  | [] => []
  | c :: cs =>
    (if c = 'Σ' then [if meetsCased before && !meetsCased cs then 'ς' else 'σ'] else lowerChar c) ++
      lowerFrom (c :: before) cs

/-- The lower case of a text. -/
def lower (t : Text) : Text := lowerFrom [] t

/-- The text with its first character in upper case. -/
def capitalize : Text → Text
  | [] => []
  | c :: cs => upperChar c ++ cs

end Stencil.Text
