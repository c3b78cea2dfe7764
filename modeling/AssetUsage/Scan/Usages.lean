import AssetUsage.Finder.Line
import AssetUsage.Log
import AssetUsage.Scan.Candidates
import AssetUsage.Usage

/-!
# Usages in a tree

A scan reads the candidates of a finder one after the other and reports every line that uses the
target, once, however many forms of reference are on it. The target itself is not searched, and a
candidate that cannot be read as text adds nothing.
-/

namespace AssetUsage.Scan

/-- What a scan makes of a candidate. -/
inductive Examination where
  | target
  | skipped (reason : SkipReason)
  | searched (text : FileText)
deriving DecidableEq, Repr

/-- Looks at one candidate. -/
def examine (tree : Tree) (finder : Finder) (sizeLimit : Nat) (file : Path) : Examination :=
  if finder.isTarget file then .target
  else
    match tree.readText file sizeLimit with
    | .error reason => .skipped reason
    | .ok text => .searched text

/-- The usage on a line of a file, whose text is kept or left to be read again. -/
def usageAt (captureText : Bool) (file : Path) (line : List Char × Nat) : Usage :=
  ⟨file, line.2, if captureText then .captured line.1 else .deferred⟩

/-- The usages in a file that was examined. -/
def usagesIn (finder : Finder) (captureText : Bool) (file : Path) : Examination → List Usage
  | .searched text =>
    (finder.usingLinesOf (finder.candidate file text.content) text.content).map
      (usageAt captureText file)
  | .target | .skipped _ => []

/-- The candidates of a finder. -/
def candidatesOf (tree : Tree) (finder : Finder) (options : ScanOptions) : List Path :=
  candidates tree finder.project.root finder.kind.extensions options.respectIgnore

/-- The usages of the target of a finder. -/
def usages (tree : Tree) (finder : Finder) (options : ScanOptions) : List Usage :=
  (candidatesOf tree finder options).flatMap fun file =>
    usagesIn finder options.captureText file (examine tree finder options.sizeLimit file)

/-- The events of examining a file. -/
def eventsIn (file : Path) : Examination → List Event
  | .target => []
  | .skipped reason => [.skipped file reason]
  | .searched text => if text.lossy then [.lossy file] else []

/-- The event of starting a scan below a root whose ignore files have problems. -/
def eventsAbove (tree : Tree) (finder : Finder) (options : ScanOptions) : List Event :=
  match problemsAbove tree finder.project.root options.respectIgnore with
  | [] => []
  | problems => [.unsound problems]

/-- The events of a scan. -/
def events (tree : Tree) (finder : Finder) (options : ScanOptions) : List Event :=
  let files := candidatesOf tree finder options
  eventsAbove tree finder options ++
    .scanning finder.kind finder.target files.length ::
    files.flatMap (fun file => eventsIn file (examine tree finder options.sizeLimit file)) ++
    [.scanned finder.target (usages tree finder options).length]

end AssetUsage.Scan
