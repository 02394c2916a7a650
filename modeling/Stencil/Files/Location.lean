import Stencil.Failure

/-!
# Locations of files

A location is a sequence of names, counted from the root when it is absolute and from the working
folder when it is not. Empty names and single dots are dropped when a location is read; a double dot
stays and leads to the folder above. `Location.normal` is the absolute location without double dots.

The suffix of a name begins at its last dot, unless that dot is its first or last character; the stem
is what is left.
-/

namespace Stencil

/-- A place in the file system. -/
structure Location where
  /-- Whether it is counted from the root. -/
  isAbsolute : Bool
  /-- The names on the way. -/
  names : List String
  deriving DecidableEq, Repr

namespace Location

/-- The root. -/
def root : Location := ⟨true, []⟩

/-- The location that a text writes. -/
def ofText (t : Text) : Location :=
  let fields := (Text.splitBy (· == '/') t).filter fun f => !f.isEmpty && f != ['.']
  ⟨t.head? == some '/', fields.map String.ofList⟩

/-- The location that a string writes. -/
def ofString (s : String) : Location := ofText s.toList

/-- The text of a location. -/
def text (l : Location) : String :=
  let joined := String.intercalate "/" l.names
  if l.isAbsolute then "/" ++ joined else if l.names.isEmpty then "." else joined

/-- A location counted from another, unless it is absolute. -/
def locate (base l : Location) : Location :=
  if l.isAbsolute then l else ⟨base.isAbsolute, base.names ++ l.names⟩

/-- The location of a name below another. -/
def child (l : Location) (name : String) : Location := { l with names := l.names ++ [name] }

/-- The location above. -/
def parent (l : Location) : Location := { l with names := l.names.dropLast }

/-- The last name. -/
def name (l : Location) : String := l.names.getLast?.getD ""

/-- A name appended to names already passed, last one first; a double dot takes one away. -/
def passName (passed : List String) (name : String) : List String :=
  if name == ".." then passed.drop 1 else name :: passed

/-- The absolute location without double dots, seen from a working folder. -/
def normal (folder l : Location) : Location :=
  ⟨true, ((folder.locate l).names.foldl passName []).reverse⟩

/-- The absolute locations from a location up to the root. -/
def upwards (l : Location) : List Location :=
  (List.range (l.names.length + 1)).map fun k => { l with names := l.names.take (l.names.length - k) }

/-- The stem and the suffix of a name. -/
def splitSuffix (name : String) : String × String :=
  let behind := name.toList.reverse.takeWhile (· != '.')
  let front := name.toList.take (name.length - behind.length - 1)
  if behind.isEmpty || front.isEmpty then (name, "")
  else (String.ofList front, String.ofList ('.' :: behind.reverse))

/-- The stem of the last name. -/
def stem (l : Location) : String := (splitSuffix l.name).1

/-- The suffix of the last name. -/
def suffix (l : Location) : String := (splitSuffix l.name).2

/-- Whether a text can be the suffix of a name: nothing, or a dot and something behind it that holds
no slash. -/
def isSuffix (s : String) : Bool :=
  match s.toList with
  | [] => true
  | '.' :: rest => !rest.isEmpty && !rest.contains '/'
  | _ => false

/-- The location with another suffix. -/
def withSuffix (l : Location) (suffix : String) : Except Failure Location :=
  if isSuffix suffix then .ok (l.parent.child (l.stem ++ suffix)) else .error (.noSuffix suffix)

/-- The names behind a location, if it leads to the other one. -/
def below? (base l : Location) : Option (List String) :=
  if base.isAbsolute == l.isAbsolute && base.names.isPrefixOf l.names then
    some (l.names.drop base.names.length)
  else none

/-- The location as seen from one above it. -/
def relativeTo (base l : Location) : Location :=
  match base.below? l with
  | some names => ⟨false, names⟩
  | none => l

@[simp] theorem locate_of_isAbsolute {base l : Location} (h : l.isAbsolute = true) :
    base.locate l = l := by
  simp [locate, h]

/-- A child lies below its folder under its name alone. -/
theorem below?_child (l : Location) (name : String) : l.below? (l.child name) = some [name] := by
  simp [below?, child]

end Location

end Stencil
