import Stencil.Text.Basic
import Stencil.Text.Word

/-!
# Reading a command line

A command line is a list of words. Words that begin with a dash are switches, unless they are a lone dash,
a negative number or a text with a space; all others are operands, and so is everything behind the first
double dash. A switch may take an argument, as the next word or in its own word, behind an equals sign or,
for a switch of one letter, immediately. Switches of one letter may share a word. A long switch may be cut
short as long as only one begins like it.

Operands are handed out in order, those that stand together at once. One that may be missing is given up
when a switch stands where it could be. Where a grammar leads on, the first operand and everything behind it
is the command line of another grammar, and the double dash has no place before it.
-/

namespace Stencil.Command

/-! ### Grammars -/

/-- What a switch is for. -/
inductive Effect where
  /-- It is on or off. -/
  | flag
  /-- It takes a text, which may have to be one of some. -/
  | text (choices : Option (List String))
  /-- It asks how the program is used. -/
  | usage
  /-- It asks for the version. -/
  | version

/-- A switch. -/
structure Switch where
  /-- The name it is known by. -/
  key : String
  /-- How it is written. -/
  names : List String
  /-- What it is for. -/
  effect : Effect

/-- An operand. -/
structure Operand where
  /-- The name it is known by. -/
  key : String
  /-- Whether it must be there. -/
  isRequired : Bool

/-- What a command line may hold. -/
structure Grammar where
  /-- The switches. -/
  switches : List Switch
  /-- The operands. -/
  operands : List Operand := []
  /-- Whether the first operand starts another command line. -/
  leadsOn : Bool := false

/-- Why a command line is not carried out. -/
inductive Stop where
  /-- It asks how the program is used, or says too little; the number is the exit code. -/
  | usage (code : Nat)
  /-- It asks for the version. -/
  | version
  /-- It is wrong. -/
  | misuse
  deriving DecidableEq, Repr

/-- What a command line gives. -/
structure Given where
  /-- The flags that are on. -/
  flags : List String := []
  /-- The texts of switches and operands, the newest first. -/
  texts : List (String × String) := []
  /-- The command line that follows, from its first operand on. -/
  following : Option (List String) := none
  /-- Whether there are words that nothing asks for. -/
  hasSurplus : Bool := false

/-- Whether a flag is on. -/
def Given.isOn (given : Given) (key : String) : Bool := given.flags.contains key

/-- The text of a switch or operand. -/
def Given.text? (given : Given) (key : String) : Option String := given.texts.lookup key

/-- The text of a switch or operand, if it is not empty. -/
def Given.someText? (given : Given) (key : String) : Option String :=
  (given.text? key).filter fun s => !s.isEmpty

/-! ### Words -/

/-- A switch that a word may stand for. -/
structure Reading where
  /-- The switch. -/
  switch : Switch
  /-- Whether it is written out, with two dashes. -/
  isLong : Bool
  /-- The text in the same word. -/
  argument : Option Text

/-- A word of a command line. -/
inductive Word where
  /-- An operand. -/
  | operand (s : String)
  /-- The double dash before operands. -/
  | separator
  /-- A switch: what it may stand for. -/
  | switch (written : String) (readings : List Reading)

/-- Whether a word is a switch. -/
def Word.isSwitch : Word → Bool
  | switch .. => true
  | _ => false

/-- How a word is written. -/
def Word.written : Word → String
  | operand s => s
  | separator => "--"
  | switch s _ => s

/-- The switch with a name. -/
def Grammar.switch? (g : Grammar) (name : Text) : Option Switch :=
  g.switches.find? fun s => s.names.any fun n => n.toList = name

/-- Whether two dashes begin a text. -/
def isLong (t : Text) : Bool := Text.startsWith ['-', '-'] t

/-- The text before the first equals sign, and the one behind it. -/
def splitEquals (t : Text) : Text × Option Text :=
  match Text.cut? ['='] t with
  | some (front, back) => (front, some back)
  | none => (t, none)

/-- Digits, with at most one line feed behind them. -/
def isLineOfDigits (t : Text) : Bool :=
  match t.dropWhile Text.isDigit with
  | [] => !t.isEmpty
  | ['\n'] => 1 < t.length
  | _ => false

/-- Whether a text is a negative number. -/
def isNegativeNumber (t : Text) : Bool :=
  match t with
  | '-' :: body =>
    isLineOfDigits body ||
      match body.dropWhile Text.isDigit with
      | '.' :: decimals => isLineOfDigits decimals
      | _ => false
  | _ => false

/-- The switches that a text may stand for, cut short or with its argument. -/
def Grammar.abbreviated (g : Grammar) (t : Text) : List Reading :=
  if isLong t then
    let (front, back) := splitEquals t
    g.switches.flatMap fun s =>
      (s.names.filter fun n => Text.startsWith front n.toList).map fun _ =>
        ⟨s, true, back⟩
  else
    match g.switch? (t.take 2) with
    | some s => [⟨s, false, some (t.drop 2)⟩]
    | none => []

/-- The switches that a text may stand for: the one with its name, with or without an argument, or else
those that it abbreviates. -/
def Grammar.readings (g : Grammar) (t : Text) : List Reading :=
  let (front, back) := splitEquals t
  match g.switch? t, g.switch? front with
  | some s, _ => [⟨s, isLong t, none⟩]
  | none, some s => [⟨s, isLong front, back⟩]
  | none, none => g.abbreviated t

/-- What a word before the double dash is. -/
def Grammar.classify (g : Grammar) (written : String) : Word :=
  let t := written.toList
  if t.head? != some '-' || t.length = 1 then .operand written
  else
    let readings := g.readings t
    if readings.isEmpty && (isNegativeNumber t || t.contains ' ') then .operand written
    else .switch written readings

/-- The words of a command line. -/
def Grammar.words (g : Grammar) : List String → List Word
  | [] => []
  | s :: rest =>
    if s = "--" then .separator :: rest.map .operand else g.classify s :: g.words rest

/-! ### Switches -/

/-- The switches that a word sets, with their texts, and the number of words behind it that it uses. -/
structure Setting where
  /-- The switches. -/
  switches : List (Switch × String)
  /-- Whether the word is no switch at all. -/
  hasSurplus : Bool := false
  /-- The number of further words. -/
  used : Nat := 0

/-- A switch without a text in its word. -/
def Switch.alone (s : Switch) (rest : List Word) : Except Stop Setting :=
  match s.effect, rest with
  | .text _, .operand t :: _ => .ok { switches := [(s, t)], used := 1 }
  | .text _, _ => .error .misuse
  | _, _ => .ok { switches := [(s, "")] }

/-- A switch of one letter and the text behind it, which is its argument or else further switches of one
letter. -/
def Grammar.joined (g : Grammar) (rest : List Word) (s : Switch) : Text → Except Stop Setting
  | [] =>
    match s.effect with
    | .text _ => .ok { switches := [(s, "")] }
    | _ => .error .misuse
  | c :: tail =>
    match s.effect with
    | .text _ => .ok { switches := [(s, String.ofList (c :: tail))] }
    | _ =>
      match g.switch? ['-', c] with
      | none => .error .misuse
      | some next => do
        let setting ← if tail.isEmpty then next.alone rest else g.joined rest next tail
        pure { setting with switches := (s, "") :: setting.switches }

/-- What a word that is a switch sets. -/
def Grammar.setting (g : Grammar) (rest : List Word) : List Reading → Except Stop Setting
  | [] => .ok { switches := [], hasSurplus := true }
  | [r] =>
    match r.argument with
    | none => r.switch.alone rest
    | some t =>
      if r.isLong then
        match r.switch.effect with
        | .text _ => .ok { switches := [(r.switch, String.ofList t)] }
        | _ => .error .misuse
      else g.joined rest r.switch t
  | _ => .error .misuse

/-- Sets a switch. A double dash as the argument in the word of a switch is no argument at all. -/
def Given.set (given : Given) (s : Switch) (t : String) : Except Stop Given :=
  match s.effect with
  | .flag => .ok { given with flags := s.key :: given.flags }
  | .usage => .error (.usage 0)
  | .version => .error .version
  | .text choices =>
    if t = "--" then .ok { given with texts := (s.key, "") :: given.texts }
    else if choices.all fun allowed => allowed.contains t then
      .ok { given with texts := (s.key, t) :: given.texts }
    else .error .misuse

/-! ### Operands -/

/-- How many words an operand takes at the front of others, and its text. -/
def takeOperand (words : List Word) : Nat × Option String :=
  match words with
  | .operand s :: .separator :: _ => (2, some s)
  | .operand s :: _ => (1, some s)
  | .separator :: .operand s :: _ => (2, some s)
  | .separator :: _ => (1, none)
  | _ => (0, none)

/-- Hands words out to operands, as many as there are words for: the keys with the numbers of words and the
texts. -/
def handOut : List Operand → List Word → List (Nat × Option (String × String))
  | [], _ => []
  | o :: others, words =>
    let (used, t) := takeOperand words
    if o.isRequired && t.isNone then []
    else (used, t.map fun s => (o.key, s)) :: handOut others (words.drop used)

/-! ### Command lines -/

/-- The sum of the numbers of words. -/
def usedWords (taken : List (Nat × Option (String × String))) : Nat :=
  taken.foldl (fun used t => used + t.1) 0

/-- Reads words, with the operands that are still to come. -/
def Grammar.readWords (g : Grammar) (given : Given) (operands : List Operand) :
    List Word → Except Stop (Given × List Operand)
  | [] => .ok (given, operands)
  | .switch _ readings :: rest => do
    let setting ← g.setting rest readings
    let given ← setting.switches.foldlM (fun given (s, t) => given.set s t) given
    g.readWords { given with hasSurplus := given.hasSurplus || setting.hasSurplus } operands
      (rest.drop setting.used)
  | word :: rest =>
    if g.leadsOn then
      match word with
      | .operand s =>
        .ok ({ given with following := some (s :: rest.map Word.written) }, operands)
      | _ => .error .misuse
    else
      let taken := handOut operands (word :: rest.takeWhile fun w => !w.isSwitch)
      let texts := (taken.filterMap Prod.snd).reverse ++ given.texts
      let given := { given with texts := texts }
      let operands := operands.drop taken.length
      match usedWords taken with
      | 0 =>
        g.readWords { given with hasSurplus := true } operands
          (rest.dropWhile fun w => !w.isSwitch)
      | n + 1 => g.readWords given operands (rest.drop n)
termination_by words => words.length
decreasing_by
  · simp only [List.length_drop, List.length_cons]
    omega
  · have := (List.dropWhile_sublist (l := rest) fun w => !w.isSwitch).length_le
    simp only [List.length_cons]
    omega
  · simp only [List.length_drop, List.length_cons]
    omega

/-- Whether a word may stand for more than one switch. -/
def Word.isAmbiguous : Word → Bool
  | switch _ readings => 1 < readings.length
  | _ => false

/-- Reads a command line: no word is ambiguous, and every operand that must be there is. -/
def Grammar.read (g : Grammar) (line : List String) : Except Stop Given := do
  let words := g.words line
  if words.any Word.isAmbiguous then throw .misuse
  let (given, missing) ← g.readWords {} g.operands words
  if missing.any Operand.isRequired then throw .misuse
  pure given

end Stencil.Command
