import Stencil.Failure
import Stencil.Marker.Registry

/-!
# The journal of a compilation

What happens to one piece of markup on its way to a template is written down as a list of events. A
`Work` may fail, and the events before the failure stay in the journal. `Summary` is the report over
the whole journal.
-/

namespace Stencil.Template

/-- One thing that happened. -/
inductive Event where
  /-- A marker token was replaced by the reference to its path. -/
  | substituted (token : String)
  /-- A marker token without a path was removed. -/
  | unresolved (token : String)
  /-- A conditional was lowered, or hidden since its condition is of no use. -/
  | conditional (isHidden : Bool)
  /-- A loop was lowered. -/
  | loop
  /-- A problem that stops nothing. -/
  | warning (text : String)
  deriving DecidableEq, Repr

/-- The events of a compilation, first one first. -/
abbrev Journal := List Event

/-- Work that adds to the journal and may fail, keeping what it has written down. -/
abbrev Work := ExceptT Failure (StateM Journal)

/-- Work that writes nothing down. -/
def Work.ofResult {α : Type} (result : Except Failure α) : Work α := fun journal => (result, journal)

/-- Writes events down. -/
def record (events : List Event) : Work Unit := fun journal => (.ok (), journal ++ events)

/-- Work goes on with the result and the journal of the work before it. -/
theorem Work.bind_of_ok {α β : Type} {x : Work α} {f : α → Work β} {journal journal' : Journal}
    {a : α} (h : x journal = (.ok a, journal')) : (x >>= f) journal = f a journal' := by
  simp only [bind, ExceptT.bind, ExceptT.mk, StateT.bind, h]
  rfl

/-- Work ends with the failure of the work before it. -/
theorem Work.bind_of_error {α β : Type} {x : Work α} {f : α → Work β} {journal journal' : Journal}
    {failure : Failure} (h : x journal = (.error failure, journal')) :
    (x >>= f) journal = (.error failure, journal') := by
  simp only [bind, ExceptT.bind, ExceptT.mk, StateT.bind, h]
  rfl

/-- The report on a compilation. -/
structure Summary where
  /-- The number of bound tokens. -/
  markers : Nat
  /-- How often a token was replaced by its reference. -/
  substituted : Nat
  /-- The tokens without a path, each once, in order. -/
  unresolved : List String
  /-- The number of conditionals. -/
  conditionals : Nat
  /-- The number of conditionals that are hidden. -/
  hidden : Nat
  /-- The number of loops. -/
  loops : Nat
  /-- The problems that stopped nothing. -/
  warnings : List String
  deriving DecidableEq, Repr

/-- The tokens without a path. -/
def unresolvedTokens (journal : Journal) : List String :=
  journal.filterMap fun
    | .unresolved token => some token
    | _ => none

theorem unresolvedTokens_append (u v : Journal) :
    unresolvedTokens (u ++ v) = unresolvedTokens u ++ unresolvedTokens v := List.filterMap_append

/-- The report over a journal and the registry of its markers. -/
def summarize (markers : Marker.Registry) (journal : Journal) : Summary where
  markers := markers.size
  substituted := journal.countP fun
    | .substituted _ => true
    | _ => false
  unresolved := (unresolvedTokens journal).eraseDups.mergeSort (· ≤ ·)
  conditionals := journal.countP fun
    | .conditional _ => true
    | _ => false
  hidden := journal.countP fun
    | .conditional isHidden => isHidden
    | _ => false
  loops := journal.countP fun
    | .loop => true
    | _ => false
  warnings := journal.filterMap fun
    | .warning text => some text
    | _ => none

/-- A report as a value. -/
def Summary.toValue (s : Summary) : Value :=
  .map
    [(.str "markers", .int s.markers), (.str "markers_substituted", .int s.substituted),
      (.str "markers_unresolved", .list (s.unresolved.map .str)),
      (.str "conditionals_rewritten", .int s.conditionals),
      (.str "conditionals_hidden", .int s.hidden), (.str "loops_rewritten", .int s.loops),
      (.str "warnings", .list (s.warnings.map .str))]

end Stencil.Template
