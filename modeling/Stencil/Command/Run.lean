import Stencil.Command.Build
import Stencil.Command.Markup
import Stencil.Command.Show

/-!
# Running a command line

A command line that is no request gets a hint or the version as its answer; a request is carried out.
-/

namespace Stencil.Command

/-- The hint on how the program is used. -/
def usageText : String :=
  "usage: handlebarize [-h] [--version] [--verbose] <command> ...\n"

/-- The name and version of the program. -/
def versionText : String := "handlebarize 1.0.0\n"

/-- The reply to a command line that is no request. -/
def Stop.reply (stop : Stop) (tree : Tree) : Reply :=
  match stop with
  | usage code => ⟨code, usageText.toList, [], tree⟩
  | version => ⟨0, versionText.toList, [], tree⟩
  | misuse => ⟨2, [], usageText.toList, tree⟩

/-- Carries out a request. -/
def Request.run (w : Workspace) (request : Request) : Except Failure Reply :=
  let manner := request.manner
  match request.task with
  | .build folder output isDryRun =>
    settle isOwnOrOfFiles manner "build_error" (buildTemplates w manner folder output isDryRun) w.tree
  | .preview folder output =>
    settle isOwnOrOfFiles manner "preview_error" (buildPreviews w manner folder output) w.tree
  | .markup file markers =>
    settle isOwnOrOfFilesOrValues manner "rewrite_error" (compileMarkup w manner file markers) w.tree
  | .showConfig key format => showConfig w manner key format

/-- Runs a command line. -/
def run (w : Workspace) (line : List String) : Except Failure Reply :=
  match Request.read line with
  | .ok request => request.run w
  | .error stop => .ok (stop.reply w.tree)

/-- A wrong command line changes no files. -/
theorem tree_run_of_stop {w : Workspace} {line : List String} {stop : Stop}
    (h : Request.read line = .error stop) : (run w line).map Reply.tree = .ok w.tree := by
  cases stop <;> simp [run, h, Stop.reply, Except.map]

end Stencil.Command
