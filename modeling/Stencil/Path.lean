import Stencil.Decimal.Literal

/-!
# Paths into values

A path such as `order.items[0].name` is a sequence of segments separated by dots and brackets. A
segment of decimal digits is a position, any other one a name; empty segments count for nothing, so
`items[0]`, `items.[0]` and `items.0` are the same path.

Following a path starts at a value and takes one step per segment. A mapping answers a position with
the entry of that number, or of the text of that number; a list answers positions only; an object
answers names. Where there is no next step, or nothing to step into, the answer is `Value.absent`.

Every text is a path, but `Path.read` takes only those whose positions do not have too many digits. Steps
may also be given as values, which need not be names or positions.
-/

namespace Stencil

/-- A path as the sequence of its steps. -/
abbrev Path := List Segment

namespace Path

/-- A character between segments. -/
def isSeparator (c : Char) : Bool := c == '.' || c == '[' || c == ']'

/-- The segment that a text between separators is. -/
def segment (t : Text) : Segment :=
  if t.all Text.isDigit then .index (Text.digitsValue t) else .key (String.ofList t)

/-- The parts of a text between separators. -/
def fields (t : Text) : List Text :=
  (Text.splitBy isSeparator t).filter fun field => !field.isEmpty

/-- The path that a text writes. -/
def parse (t : Text) : Path := (fields t).map segment

/-- Refuses a part that is a position of too many digits. -/
def checkField (field : Text) : Except Failure Unit :=
  if field.all Text.isDigit then Decimal.checkDigits field else .ok ()

/-- Reads a path; the first position of too many digits is a failure. -/
def read (t : Text) : Except Failure Path := do
  (fields t).forM checkField
  pure (parse t)

/-- The path of an entry of the mapping at a path. -/
def join (base : String) (key : Value) : String :=
  if base.isEmpty then key.displayString else base ++ "." ++ key.displayString

/-- The path of the item that stands for all items of the list at a path. -/
def item (base : String) : String := if base.isEmpty then "[0]" else base ++ ".[0]"

end Path

/-- A segment as the key of a mapping. -/
def Segment.toValue : Segment → Value
  | .key name => .str name
  | .index i => .int i

namespace Value

/-- The item at a position, counted from the end when negative. -/
def itemAt (items : List Value) (i : Int) : Value :=
  if 0 ≤ i then items.getD i.toNat .absent
  else if (-i).toNat ≤ items.length then items.getD (items.length - (-i).toNat) .absent
  else .absent

/-- The entry of a mapping at a segment. -/
def entryAt (entries : Mapping) (s : Segment) : Value :=
  match Mapping.get? s.toValue entries with
  | some v => v
  | none =>
    match s with
    | .key _ => .absent
    | .index i => (Mapping.at? (String.ofList (Decimal.intText i)) entries).getD .absent

/-- The attribute of an object, node or function, if it has it. -/
def member? (v : Value) (name : String) : Option Value :=
  match v with
  | .object attributes => attributes.lookup name
  | .element type props children =>
    if name = "type" then some type
    else if name = "props" then some (.map props)
    else if name = "children" then some (.tuple children)
    else if name = "__element__" then some (.str elementMark)
    else none
  | .closure own _ _ traits =>
    (traits.lookup name).or (if name = "__name__" then some (.str own) else none)
  | .date d => (d.parts.lookup name).map fun n => .int n
  | .moment m =>
    if name = "tzinfo" && m.offset.isNone then some .null
    else (m.parts.lookup name).map fun n => .int n
  | _ => none

/-- The attribute of an object, node or function. -/
def member (v : Value) (name : String) : Value := (v.member? name).getD .absent

/-- One step into a value. -/
def step (v : Value) (s : Segment) : Value :=
  match v with
  | .map entries => entryAt entries s
  | .list items | .tuple items =>
    match s with
    | .index i => itemAt items i
    | .key _ => .absent
  | _ =>
    match s with
    | .key name => v.member name
    | .index _ => .absent

/-- Whether a value has no inside. -/
def isNothing : Value → Bool
  | .null | .absent => true
  | _ => false

/-- The value at the end of a path. -/
def follow (v : Value) : Path → Value
  | [] => v
  | s :: rest => if v.isNothing then .absent else follow (v.step s) rest

/-- The value at the end of a path given as text. -/
def resolve (path : Text) (v : Value) : Value := v.follow (Path.parse path)

/-- The value at the end of a path given as text, if the path can be read. -/
def lookup (path : Text) (v : Value) : Except Failure Value := do pure (v.follow (← Path.read path))

/-! ### Steps given as values -/

/-- The item at a position of a list or tuple, which must not lie before its start. -/
def itemFrom (v : Value) (i : Int) : Except Failure Value :=
  match v with
  | .list items => if i < -items.length then .error .outOfList else .ok (itemAt items i)
  | .tuple items => if i < -items.length then .error .outOfTuple else .ok (itemAt items i)
  | _ => .ok .absent

/-- Refuses a value that is no key. -/
def checkKey (key : Value) : Except Failure Unit :=
  match key.unkeyed? with
  | some kind => .error (.noKey kind)
  | none => .ok ()

/-- The entry of a mapping at a key; an integer or truth value also finds the entry of its text. -/
def entryFrom (entries : Mapping) (key : Value) : Except Failure Value := do
  key.checkKey
  match Mapping.get? key entries with
  | some v => pure v
  | none =>
    if key.integerKey?.isSome then pure ((Mapping.at? key.displayString entries).getD .absent)
    else pure .absent

/-- One step into a value, for a step that is a value. -/
def stepFrom (v key : Value) : Except Failure Value :=
  match v with
  | .map entries => entryFrom entries key
  | .list _ | .tuple _ =>
    match key.integerKey? with
    | some i => v.itemFrom i
    | none => .ok .absent
  | _ =>
    match key.text? with
    | some name => .ok (v.member name)
    | none => .ok .absent

/-- The value at the end of steps that are values. -/
def walk (v : Value) : List Value → Except Failure Value
  | [] => .ok v
  | key :: rest => if v.isNothing then .ok .absent else do (← v.stepFrom key).walk rest

/-- Nothing comes of stepping into nothing. -/
theorem follow_of_isNothing {v : Value} (h : v.isNothing = true) (s : Segment) (p : Path) :
    v.follow (s :: p) = .absent := by
  simp [follow, h]

/-- A path that can be read leads where it leads as a mere text. -/
theorem lookup_eq_ok_iff {path : Text} {v w : Value} :
    v.lookup path = .ok w ↔ (∃ p, Path.read path = .ok p) ∧ v.resolve path = w := by
  unfold lookup resolve Path.read
  cases h : (Path.fields path).forM Path.checkField <;>
    simp [bind, Except.bind, pure, Except.pure]

/-- Following a path and then another is following both. -/
theorem follow_append (v : Value) (p q : Path) (h : (v.follow p).isNothing = false) :
    v.follow (p ++ q) = (v.follow p).follow q := by
  induction p generalizing v with
  | nil => rfl
  | cons s rest ih =>
    by_cases hv : v.isNothing
    · rw [follow_of_isNothing hv] at h
      simp [isNothing] at h
    · simp only [List.cons_append, follow, hv, Bool.false_eq_true, if_false] at h ⊢
      exact ih _ h

end Value

end Stencil
