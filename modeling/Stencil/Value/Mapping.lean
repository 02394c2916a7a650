import Stencil.Value.Basic

/-!
# Ordered mappings

A mapping is the list of its entries in the order in which their keys were first put in. A truth
value, an integer and a floating point number are the same key when they are the same number, and
plain and raw text are the same key when they are the same text. Putting a key in again keeps its
first place and takes the last value.
-/

namespace Stencil

/-- A mapping as the list of its entries. -/
abbrev Mapping := List (Value × Value)

namespace Value

/-- The mapping that a value is, or the empty one. -/
def toMapping : Value → Mapping
  | .map entries => entries
  | _ => []

/-- Whether an integer and a floating point number are the same number, exactly: the integer is the
mantissa times its power of two. -/
def sameNumber (i : Int) (x : Float) : Bool :=
  match Decimal.Binary.ofFloat? x with
  | none => x == 0.0 && i == 0
  | some b =>
    (i < 0) == (x < 0.0) &&
      i.natAbs * Nat.pow 2 (-b.exponent).toNat == b.mantissa * Nat.pow 2 b.exponent.toNat

/-- The integer that an integer or truth value is, as a key. -/
def integerKey? : Value → Option Int
  | .int i => some i
  | .bool b => some (if b then 1 else 0)
  | _ => none

/-- Whether two values that are no tuples are the same key. -/
def sameScalarKey (a b : Value) : Bool :=
  match a.integerKey?, b.integerKey? with
  | some i, some j => i == j
  | some i, none =>
    match b with
    | .float x => sameNumber i x
    | _ => false
  | none, some j =>
    match a with
    | .float x => sameNumber j x
    | _ => false
  | none, none =>
    match a.text?, b.text? with
    | some s, some t => s == t
    | _, _ =>
      match a, b with
      | .null, .null => true
      | .absent, .absent => true
      | .fragmentType, .fragmentType => true
      | .bytes s, .bytes t => s == t
      | .float x, .float y => x == y
      | .date d, .date e => d == e
      | .moment m, .moment n => m.same n
      | _, _ => false

mutual

/-- Whether two values are the same key. -/
def sameKey : Value → Value → Bool
  | .tuple xs, .tuple ys => sameKeys xs ys
  | a, b => sameScalarKey a b

/-- Whether two lists of values are the same keys, one by one. -/
def sameKeys : List Value → List Value → Bool
  | [], [] => true
  | x :: xs, y :: ys => sameKey x y && sameKeys xs ys
  | _, _ => false

end

/-- Texts are the same key when they are the same text. -/
@[simp] theorem sameKey_str (s t : String) : (Value.str s).sameKey (.str t) = (s == t) := by
  simp [sameKey, sameScalarKey, integerKey?, text?]

mutual

/-- The name of the kind of value that keeps a value from being a key: no list, mapping or set is a key,
no element, whose properties are a mapping, and no tuple that holds one of these. -/
def unkeyed? : Value → Option String
  | .list _ => some "list"
  | .map _ => some "dict"
  | .set _ => some "set"
  | .tuple items => unkeyedAmong? items
  | .element type _ _ => some ((unkeyed? type).getD "dict")
  | _ => none

/-- The name of the kind of the first of some values that is no key. -/
def unkeyedAmong? : List Value → Option String
  | [] => none
  | v :: rest => (unkeyed? v).or (unkeyedAmong? rest)

end

end Value

namespace Mapping

/-- The value at a key. -/
def get? (key : Value) : Mapping → Option Value
  | [] => none
  | (k, v) :: rest => if k.sameKey key then some v else get? key rest

/-- The value at a name. -/
def at? (name : String) (m : Mapping) : Option Value := get? (.str name) m

/-- The value at a name, or no value. -/
def getD (name : String) (m : Mapping) : Value := (at? name m).getD .null

/-- The mapping with a value at a key. -/
def put (key value : Value) : Mapping → Mapping
  | [] => [(key, value)]
  | (k, v) :: rest => if k.sameKey key then (k, value) :: rest else (k, v) :: put key value rest

/-- The mapping with a value at a name. -/
def set (name : String) (value : Value) (m : Mapping) : Mapping := put (.str name) value m

/-- The mapping without a name. -/
def erase (name : String) : Mapping → Mapping
  | [] => []
  | (k, v) :: rest => if k.sameKey (.str name) then rest else (k, v) :: erase name rest

/-- The mapping that putting in entries from left to right makes. -/
def ofEntries (entries : List (Value × Value)) : Mapping :=
  entries.foldl (fun m entry => put entry.1 entry.2 m) []

theorem exists_mem_of_get? {key v : Value} {m : Mapping} (h : get? key m = some v) :
    ∃ k, (k, v) ∈ m := by
  induction m with
  | nil => simp [get?] at h
  | cons entry rest ih =>
    obtain ⟨k, w⟩ := entry
    rw [get?] at h
    split at h
    · obtain rfl : w = v := by simpa using h
      exact ⟨k, by simp⟩
    · obtain ⟨k', hk'⟩ := ih h
      exact ⟨k', by simp [hk']⟩

theorem sizeOf_lt_of_get? {key v : Value} {m : Mapping} (h : get? key m = some v) :
    sizeOf v < sizeOf m := by
  induction m with
  | nil => simp [get?] at h
  | cons entry rest ih =>
    obtain ⟨k, w⟩ := entry
    simp only [get?] at h
    simp only [List.cons.sizeOf_spec, Prod.mk.sizeOf_spec]
    split at h
    · obtain rfl : w = v := by simpa using h
      omega
    · have := ih h
      omega

/-- The value at a name is smaller than what holds the mapping. -/
theorem sizeOf_getD_le (name : String) (m : Mapping) : sizeOf (getD name m) ≤ sizeOf m := by
  unfold getD at?
  cases h : get? (.str name) m with
  | none =>
    have : 1 ≤ sizeOf m := by
      cases m <;> simp only [List.nil.sizeOf_spec, List.cons.sizeOf_spec] <;> omega
    simpa using this
  | some v => exact Nat.le_of_lt (sizeOf_lt_of_get? h)

end Mapping

end Stencil
