import Stencil.Command.Request
import Stencil.Config.Store
import Stencil.Json.Writer

/-!
# Carrying out requests

A request is carried out in a workspace: the files, the working folder, the environment and the input.
What comes of it is a reply: the exit code, what is written to the output and to the error output, and the
files afterwards. A job that fails leaves the files that it has written so far. Some failures are reported
in the reply, depending on the request; the others are failures of the program as a whole.
-/

namespace Stencil.Command

/-- What a program sees. -/
structure Workspace where
  /-- The files. -/
  tree : Tree
  /-- The working folder. -/
  folder : Location
  /-- The environment. -/
  environment : Config.Environment
  /-- The input. -/
  input : Text

/-- What a program leaves behind. -/
structure Reply where
  /-- The exit code. -/
  code : Nat
  /-- The output. -/
  output : Text
  /-- The error output. -/
  errors : Text
  /-- The files. -/
  tree : Tree

/-- Work on files that may fail. -/
abbrev Job := ExceptT Failure (StateM Tree)

/-- Work that changes no files. -/
def Job.ofResult {α : Type} (result : Except Failure α) : Job α := fun tree => (result, tree)

/-- Work that changes files unless it fails. -/
def Job.ofChange {α : Type} (change : Tree → Except Failure (α × Tree)) : Job α := fun tree =>
  match change tree with
  | .ok (a, after) => (.ok a, after)
  | .error failure => (.error failure, tree)

/-! ### Output -/

/-- A text and the end of its line. -/
def line (t : Text) : Text := t ++ ['\n']

/-- A value as JSON over several lines. -/
def jsonText (v : Value) : Text := line (Json.write .report v)

/-- A mapping by its names. -/
def named (entries : List (String × Value)) : Value :=
  .map (entries.map fun (name, v) => (.str name, v))

/-- What is written about an error: its name counts only in JSON, and so do the facts. -/
def errorText (isJson : Bool) (name message : String) (context : List (String × Value)) : Text :=
  if isJson then
    jsonText (named ([("error", .str name), ("message", .str message)] ++
      if context.isEmpty then [] else [("context", named context)]))
  else line ("Error: " ++ message).toList

/-- The reply of a job whose failures are reported under a name, if they are of some kind. -/
def settle (isReported : Failure → Bool) (manner : Manner) (name : String) (job : Job (Nat × Text))
    (tree : Tree) : Except Failure Reply :=
  match job.run.run tree with
  | (.ok (code, output), after) => .ok ⟨code, output, [], after⟩
  | (.error failure, after) =>
    if isReported failure then
      .ok ⟨1, [], errorText manner.isJson name failure.message failure.context, after⟩
    else .error failure

/-- Whether a failure is one of this program or of the files. -/
def isOwnOrOfFiles (failure : Failure) : Bool := failure.isOwn || failure.isOfFiles

/-! ### The project -/

/-- The root of the project. -/
def Workspace.root (w : Workspace) (manner : Manner) : Location :=
  match manner.root with
  | some given => w.folder.normal (.ofString given)
  | none => Project.root w.tree w.environment w.folder

/-- The checked configuration of the project. -/
def Workspace.config (w : Workspace) (manner : Manner) : Except Failure Mapping :=
  Config.loadChecked w.tree w.environment (w.root manner)

/-- The file for records of what happens, if the configuration names one. -/
def recordFile? (config : Mapping) : Option String :=
  (((config.getD "logging").toMapping.at? "file").bind Value.text?).filter fun s => !s.isEmpty

/-- Makes sure that the file for records is there. -/
def openRecords (root : Location) (config : Mapping) : Job Unit :=
  match recordFile? config with
  | none => pure ()
  | some file =>
    let place := root.normal (.ofString file)
    Job.ofChange fun tree =>
      if tree.isFile place then .ok ((), tree) else (tree.write place []).map fun after => ((), after)

/-- The configuration, with the file for records in place. -/
def prepare (w : Workspace) (manner : Manner) : Job Mapping := do
  let config ← Job.ofResult (w.config manner)
  openRecords (w.root manner) config
  pure config

/-- The program as a whole fails exactly when the job fails in a way that is not reported. -/
theorem settle_eq_error_iff {isReported : Failure → Bool} {manner : Manner} {name : String}
    {job : Job (Nat × Text)} {tree : Tree} {failure : Failure} :
    settle isReported manner name job tree = .error failure ↔
      (job.run.run tree).1 = .error failure ∧ isReported failure = false := by
  unfold settle
  split
  · rename_i h
    simp [h]
  · rename_i f after h
    rw [h]
    by_cases hf : isReported f = true
    · simp only [hf, if_true, reduceCtorEq, false_iff, not_and]
      rintro ⟨rfl⟩
      simp [hf]
    · simp only [hf, Bool.false_eq_true, if_false, Except.error.injEq]
      constructor
      · rintro rfl
        exact ⟨rfl, by simpa using hf⟩
      · exact And.left

end Stencil.Command
