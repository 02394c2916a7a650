import Stencil.Files.Location
import Stencil.Template.Journal

/-!
# Reports on builds

A build makes one artifact of each component module, and its report lists what became of them in the
order of the modules. An artifact that fails does not stop the others.
-/

namespace Stencil.Build

/-- What became of a component module. -/
inductive Outcome where
  /-- An artifact, at a place, and what happened on the way to it. -/
  | built (output : Location) (summary : Option Template.Summary)
  /-- Nothing, since the module has no component. -/
  | skipped
  /-- Nothing, since something went wrong. -/
  | failed (failure : Failure)

/-- A component module and what became of it. -/
structure Artifact where
  /-- The module. -/
  source : Location
  /-- What became of it. -/
  outcome : Outcome

/-- The report on a build. -/
structure Report where
  /-- Whether nothing was written. -/
  isDryRun : Bool
  /-- The artifacts. -/
  artifacts : List Artifact

/-! ### Counting -/

/-- The kinds of outcomes. -/
inductive Status where
  /-- There is an artifact. -/
  | built
  /-- There was no component. -/
  | skipped
  /-- Something went wrong. -/
  | failed
  deriving DecidableEq, Repr

/-- The name of a kind of outcome. -/
def Status.name : Status → String
  | built => "built"
  | skipped => "skipped"
  | failed => "failed"

/-- The kind of an outcome. -/
def Outcome.status : Outcome → Status
  | built .. => .built
  | skipped => .skipped
  | failed _ => .failed

/-- The number of artifacts with a kind of outcome. -/
def Report.count (report : Report) (status : Status) : Nat :=
  report.artifacts.countP fun a => a.outcome.status = status

/-- Whether nothing went wrong. -/
def Report.isFine (report : Report) : Bool := report.count .failed == 0

/-- Every artifact is counted exactly once. -/
theorem Report.count_add_count_add_count (report : Report) :
    report.count .built + report.count .failed + report.count .skipped =
      report.artifacts.length := by
  unfold Report.count
  induction report.artifacts with
  | nil => rfl
  | cons a rest ih =>
    cases h : a.outcome.status <;> simp [h] <;> omega

/-! ### Reports as values -/

/-- A mapping by its names. -/
def record (entries : List (String × Value)) : Value :=
  .map (entries.map fun (name, v) => (.str name, v))

/-- A failure as a value. -/
def failureValue (failure : Failure) : Value :=
  record
    [("message", .str failure.message), ("code", .str failure.code),
      ("context", record failure.context)]

/-- What an outcome adds to the value of an artifact. -/
def Outcome.details : Outcome → List (String × Value)
  | built output summary =>
    ("output", .str output.text) :: (summary.map fun s => ("summary", s.toValue)).toList
  | skipped => []
  | failed failure => [("error", failureValue failure)]

/-- An artifact as a value. -/
def Artifact.toValue (a : Artifact) : Value :=
  record ([("source", .str a.source.text), ("status", .str a.outcome.status.name)] ++ a.outcome.details)

/-- A report as a value. -/
def Report.toValue (report : Report) : Value :=
  record
    [("dry_run", .bool report.isDryRun), ("built", .int (report.count .built)),
      ("failed", .int (report.count .failed)), ("skipped", .int (report.count .skipped)),
      ("artifacts", .list (report.artifacts.map Artifact.toValue))]

end Stencil.Build
