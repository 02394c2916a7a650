import Stencil.Failure

/-!
# The marker registry

The tokens of one rendering pass and the paths they stand for, in the order in which they were first
bound. A token never changes its path: binding it to another one is a collision and changes nothing.
A path knows the token it was bound to last.
-/

namespace Stencil.Marker

/-- Puts a value at a name; a name keeps its first place and takes the last value. -/
def putName (name value : String) : List (String × String) → List (String × String)
  | [] => [(name, value)]
  | (n, v) :: rest => if n = name then (n, value) :: rest else (n, v) :: putName name value rest

/-- Tokens and paths, both ways. -/
structure Registry where
  /-- The path of each token, in the order of binding. -/
  paths : List (String × String) := []
  /-- The token of each path. -/
  tokens : List (String × String) := []
  deriving DecidableEq, Repr

namespace Registry

/-- The path a token stands for. -/
def pathFor? (r : Registry) (token : String) : Option String := r.paths.lookup token

/-- The token that stands for a path. -/
def tokenFor? (r : Registry) (path : String) : Option String := r.tokens.lookup path

/-- Whether a token is bound. -/
def contains (r : Registry) (token : String) : Bool := (r.pathFor? token).isSome

/-- The number of bound tokens. -/
def size (r : Registry) : Nat := r.paths.length

/-- The registry with a token bound to a path. -/
def put (r : Registry) (token path : String) : Registry :=
  { paths := putName token path r.paths, tokens := putName path token r.tokens }

/-- Binds a token to a path, unless it is bound to another one. -/
def bind (r : Registry) (token path : String) : Except Failure Registry :=
  match r.pathFor? token with
  | some bound =>
    if bound = path then .ok (r.put token path) else .error (.markerCollision token bound path)
  | none => .ok (r.put token path)

/-- How a registry shows itself. -/
def summary (r : Registry) : String := "MarkerRegistry(" ++ toString r.size ++ " tokens)"

end Registry

theorem lookup_putName_self (name value : String) (entries : List (String × String)) :
    (putName name value entries).lookup name = some value := by
  induction entries with
  | nil => simp [putName]
  | cons entry rest ih =>
    obtain ⟨n, v⟩ := entry
    by_cases h : n = name
    · simp [putName, h]
    · have h' : (name == n) = false := by simpa using fun e => h e.symm
      simp [putName, h, List.lookup_cons, h', ih]

theorem lookup_putName_of_ne {name other : String} (h : other ≠ name) (value : String)
    (entries : List (String × String)) :
    (putName name value entries).lookup other = entries.lookup other := by
  induction entries with
  | nil =>
    have h' : (other == name) = false := by simpa using h
    simp [putName, List.lookup_cons, h']
  | cons entry rest ih =>
    obtain ⟨n, v⟩ := entry
    by_cases hn : n = name
    · subst hn
      have h' : (other == n) = false := by simpa using h
      simp [putName, List.lookup_cons, h']
    · simp only [putName, hn, if_false, List.lookup_cons, ih]

/-- A bound token has its path. -/
@[simp] theorem Registry.pathFor?_put_self (r : Registry) (token path : String) :
    (r.put token path).pathFor? token = some path := lookup_putName_self ..

/-- A bound path has its token. -/
@[simp] theorem Registry.tokenFor?_put_self (r : Registry) (token path : String) :
    (r.put token path).tokenFor? path = some token := lookup_putName_self ..

/-- Binding a token leaves the paths of all others. -/
theorem Registry.pathFor?_put_of_ne (r : Registry) {token other : String} (h : other ≠ token)
    (path : String) : (r.put token path).pathFor? other = r.pathFor? other :=
  lookup_putName_of_ne h ..

end Stencil.Marker
