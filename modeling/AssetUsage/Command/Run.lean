import AssetUsage.Command.Arguments
import AssetUsage.Project
import AssetUsage.Search

/-!
# Running a command

A run prints one text to the output and events to the log, and ends with a status: zero, one when a
search finds nothing, two when the command line or the project is at fault. The format of the output
is looked at before the project.
-/

namespace AssetUsage.Command

/-- What a run starts from. -/
structure Surroundings where
  /-- The files, with the directory that relative roots start from. -/
  tree : Tree
  /-- The root that the environment names. -/
  environmentRoot : Option (List Char)
  /-- The output is shown on a terminal. -/
  terminal : Bool

/-- Why a run failed. -/
inductive Failure where
  | format (error : UnknownFormat)
  | project (root : Path) (error : OpenError)
deriving DecidableEq, Repr

/-- The messages that say why a run failed, from the outermost to the cause. -/
def Failure.messages : Failure → List (List Char)
  | .format error => [error.message]
  | .project root error =>
    ("cannot open project at ".toList ++ root.text) :: error.message :: error.causes

/-- The text of a failure. -/
def Failure.shown (failure : Failure) : List Char :=
  "Error: ".toList ++ ": ".toList.intercalate failure.messages

/-- How a run ends. -/
inductive Outcome where
  | refused (refusal : Refusal)
  | failed (failure : Failure)
  /-- The command is done, with a status, an output and a log. -/
  | done (status : Nat) (output : List Char) (log : List (List Char))
deriving DecidableEq, Repr

/-- The exit status of a run. -/
def Outcome.status : Outcome → Nat
  | .refused .help | .refused .version => 0
  | .refused _ | .failed _ => 2
  | .done status _ _ => status

/-- The least important level that is logged. -/
def Invocation.logLevel (invocation : Invocation) : LogLevel :=
  if invocation.verbose then .debug else if invocation.quiet then .error else .warn

/-- The directories that the command line moves; views that are moved take the layouts with them. -/
def Invocation.overrides (invocation : Invocation) : Project.Overrides where
  views := invocation.viewsDir
  layouts := invocation.layoutsDir.or
    (invocation.viewsDir.map (·.join (.ofString "layouts")))
  controllers := invocation.controllersDir
  publicFiles := invocation.publicDir

/-- The project that the command line is about. -/
def Invocation.project (surroundings : Surroundings) (invocation : Invocation) :
    Except Failure Project :=
  match Project.openAt surroundings.tree invocation.root with
  | .ok project => .ok (project.override invocation.overrides)
  | .error error => .error (.project invocation.root error)

/-- How the output is rendered. -/
def Invocation.style (surroundings : Surroundings) (invocation : Invocation) :
    Except Failure RenderStyle :=
  match OutputFormat.ofName invocation.format with
  | .ok format => .ok ⟨format, surroundings.terminal && !invocation.noColor⟩
  | .error error => .error (.format error)

/-- An output as it is printed: with a line end, unless it is empty. -/
def printed (output : List Char) : List Char := if output.isEmpty then [] else output ++ ['\n']

/-- Prints the usages of targets; the status tells whether there are any. -/
def runFind (tree : Tree) (project : Project) (options : ScanOptions) (style : RenderStyle)
    (targets : List Path) : Nat × List Char × List Event :=
  let options := { options with captureText := style.format.showsLineText }
  let reports := Search.reports tree project options targets
  (if Search.found reports then 0 else 1,
    printed (Report.render tree project.root style reports),
    Search.events tree project options targets)

/-- Prints the targets that have no usage. -/
def runUnused (tree : Tree) (project : Project) (options : ScanOptions) (style : RenderStyle)
    (targets : List Path) : Nat × List Char × List Event :=
  (0, printed (Report.renderTargets style (Search.unused tree project options targets)),
    Search.events tree project options targets)

/-- Prints the kinds of targets. -/
def runKind (project : Project) (style : RenderStyle) (targets : List Path) :
    Nat × List Char × List Event :=
  (0, printed (Report.renderTargets style (Search.kinds project targets)), [])

/-- Does what an invocation asks for. -/
def Invocation.run (surroundings : Surroundings) (invocation : Invocation) :
    Except Failure Outcome := do
  let style ← invocation.style surroundings
  let project ← invocation.project surroundings
  let tree := surroundings.tree
  let options : ScanOptions := { respectIgnore := !invocation.noIgnore }
  let (status, output, events) := match invocation.command with
    | .find => runFind tree project options style invocation.targets
    | .unused => runUnused tree project options style invocation.targets
    | .kind => runKind project style invocation.targets
  return .done status output (logLines invocation.logLevel events)

/-- Reads a command line and runs it. -/
def run (surroundings : Surroundings) (arguments : List (List Char)) : Outcome :=
  match readInvocation surroundings.environmentRoot arguments with
  | .error refusal => .refused refusal
  | .ok invocation =>
    match invocation.run surroundings with
    | .error failure => .failed failure
    | .ok outcome => outcome

end AssetUsage.Command
