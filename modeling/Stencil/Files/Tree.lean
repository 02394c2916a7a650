import Stencil.Files.Location

/-!
# Trees of files

The files that a program sees, as a value: each is a route of names from the root and the text of the
file, and a folder is a route of its own or anything above a file. Reading and writing are functions
on trees, so a whole build is one.

A location is followed name by name, and every name but the last must lead to a folder; a double dot
leads back. What is written replaces what was there, and the folders on the way are made.
-/

namespace Stencil

/-- The names from the root to a file or folder. -/
abbrev Route := List String

/-- What stands at a route. -/
inductive Entry where
  /-- A folder. -/
  | folder
  /-- A file with its text. -/
  | file (text : Text)

/-- The files and folders that there are. -/
structure Tree where
  /-- Files and folders by their routes; each route at most once. -/
  entries : List (Route × Entry) := []

namespace Tree

/-- Whether a route leads on from another. -/
def leadsOn (above route : Route) : Bool := above.isPrefixOf route && above != route

/-- What stands at a route. -/
def at? (tree : Tree) (route : Route) : Option Entry :=
  match tree.entries.lookup route with
  | some e => some e
  | none =>
    if route.isEmpty || tree.entries.any (fun e => leadsOn route e.1) then some .folder else none

/-- Whether a folder stands at a route. -/
def isFolderAt (tree : Tree) (route : Route) : Bool :=
  match tree.at? route with
  | some .folder => true
  | _ => false

/-- The tree with an entry at a route. -/
def put (tree : Tree) (route : Route) (e : Entry) : Tree :=
  ⟨tree.entries.filter (fun old => old.1 != route) ++ [(route, e)]⟩

/-! ### Locations -/

/-- The route behind names, from a route that is known to stand. -/
def routeFrom? (tree : Tree) (passed : Route) : List String → Option Route
  | [] => some passed
  | name :: rest =>
    if !tree.isFolderAt passed then none
    else if name == ".." then routeFrom? tree passed.dropLast rest
    else
      let next := passed ++ [name]
      if (tree.at? next).isSome then routeFrom? tree next rest else none

/-- The route of a location at which something stands. -/
def route? (tree : Tree) (l : Location) : Option Route := tree.routeFrom? [] l.names

/-- What stands at a location. -/
def find? (tree : Tree) (l : Location) : Option Entry := (tree.route? l).bind tree.at?

/-- Whether something stands at a location. -/
def exists? (tree : Tree) (l : Location) : Bool := (tree.find? l).isSome

/-- Whether a file stands at a location. -/
def isFile (tree : Tree) (l : Location) : Bool :=
  match tree.find? l with
  | some (.file _) => true
  | _ => false

/-! ### Reading -/

/-- A text with a line feed for every line end. -/
def plainLines : Text → Text
  | '\r' :: '\n' :: rest => '\n' :: plainLines rest
  | '\r' :: rest => '\n' :: plainLines rest
  | c :: rest => c :: plainLines rest
  | [] => []

/-- The text of the file at a location, which failures show as it is given. -/
def read (tree : Tree) (folder l : Location) : Except Failure Text :=
  match tree.find? (folder.locate l) with
  | some (.file t) => .ok (plainLines t)
  | _ => .error (.noFile l.text)

/-- Whether a route comes before another or is the same, name by name. -/
def comesBefore : Route → Route → Bool
  | [], _ => true
  | _ :: _, [] => false
  | a :: route, b :: other => if a = b then comesBefore route other else a < b

/-- The routes below a route, from there on, each of the files in them, in the order of their names. -/
def filesBelow (tree : Tree) (route : Route) : List Route :=
  let below := tree.entries.filterMap fun (r, e) =>
    match e with
    | .file _ => if leadsOn route r then some (r.drop route.length) else none
    | .folder => none
  below.mergeSort comesBefore

/-- The names of what stands in a folder, in order. -/
def namesIn (tree : Tree) (route : Route) : List String :=
  let names := tree.entries.filterMap fun (r, _) =>
    if leadsOn route r then (r.drop route.length).head? else none
  names.eraseDups.mergeSort (· ≤ ·)

/-! ### Writing -/

/-- Whether a file stands above a route. -/
def isInsideFile (tree : Tree) (route : Route) : Bool :=
  tree.entries.any fun (r, e) =>
    match e with
    | .file _ => leadsOn r route
    | .folder => false

/-- The tree in which a folder stands at an absolute location. -/
def ensureFolder (tree : Tree) (l : Location) : Except Failure Tree :=
  match tree.find? l with
  | some .folder => .ok tree
  | some (.file _) => .error (.notADirectory l.text)
  | none =>
    let route := (Location.root.normal l).names
    if tree.isInsideFile route then .error (.insideFile l.text)
    else .ok (if (tree.at? route).isSome then tree else tree.put route .folder)

/-- The tree in which a file stands at an absolute location, together with its folders. -/
def write (tree : Tree) (l : Location) (t : Text) : Except Failure Tree := do
  let tree ← tree.ensureFolder l.parent
  let above := (tree.route? l.parent).getD (Location.root.normal l.parent).names
  let route := above ++ [l.name]
  if tree.isFolderAt route then throw (.notAFile l.text)
  pure (tree.put route (.file t))

/-- The text of a route. -/
def routeText (route : Route) : String := String.intercalate "/" route

/-- The files of a tree that are not in another, or not with the same text, in the order of their
texts. -/
def changes (before after : Tree) : List (Route × Text) :=
  let written := after.entries.filterMap fun (r, e) =>
    match e, before.entries.lookup r with
    | .file t, some (.file old) => if t = old then none else some (r, t)
    | .file t, _ => some (r, t)
    | .folder, _ => none
  written.mergeSort fun a b => routeText a.1 ≤ routeText b.1

/-! ### Laws -/

/-- What is put at a route stands there. -/
theorem at?_put_self (tree : Tree) (route : Route) (e : Entry) :
    (tree.put route e).at? route = some e := by
  have h : ∀ entries : List (Route × Entry),
      (entries.filter (fun old => old.1 != route) ++ [(route, e)]).lookup route = some e := by
    intro entries
    induction entries with
    | nil => simp
    | cons old rest ih =>
      by_cases hr : old.1 = route
      · simpa [List.filter_cons, hr] using ih
      · have hne : (route == old.1) = false := by simpa using fun hc => hr hc.symm
        obtain ⟨r, x⟩ := old
        simp only at hr hne
        simp [hr, List.lookup_cons, hne, ih]
  simp [put, at?, h]

end Tree

end Stencil
