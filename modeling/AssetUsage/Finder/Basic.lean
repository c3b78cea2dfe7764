import AssetUsage.Call.LayoutDeclaration
import AssetUsage.Convention
import AssetUsage.Kind

/-!
# Finders and candidates

A finder looks for the usages of one target of a known kind. A candidate is a file in which it
looks; what a line of the candidate means may depend on where the candidate is and on the rest of
its content.
-/

namespace AssetUsage

/-- A target with its kind. -/
structure Finder where
  kind : AssetKind
  project : Project
  /-- The normal, absolute path of the target. -/
  target : Path
deriving DecidableEq, Repr

/-- What is known of a candidate beyond one of its lines. -/
structure Candidate where
  path : Path
  /-- The last extension in lower case, empty if there is none. -/
  extension : List Char
  inPublic : Bool
  /-- Where views are that the file names without a directory. -/
  viewsDir : Option Path
  controller : Option (List Char)
  /-- A line of the file decides about the layout of its class. -/
  declaresLayout : Bool
deriving DecidableEq, Repr

namespace Finder

/-- The finder of a kind for a target that is relative to the root of the project. -/
def new (kind : AssetKind) (project : Project) (target : Path) : Finder :=
  ⟨kind, project, project.absolutize target⟩

/-- The finder for a target, unless no kind covers it. -/
def ofTarget? (project : Project) (target : Path) : Option Finder :=
  let target := project.absolutize target
  (AssetKind.ofTarget? project target).map fun kind => new kind project target

/-- The path is the target. -/
def isTarget (finder : Finder) (path : Path) : Bool := decide (path.SamePath finder.target)

/-- The file that a reference names is the target. -/
def isNamed (finder : Finder) (file : Option Path) : Bool := file.any finder.isTarget

/-- What is known of the candidate with a path and a content. Views and controllers matter for
templates alone, and declarations for layouts in Ruby files. -/
def candidate (finder : Finder) (path : Path) (content : List Char) : Candidate :=
  let extension := path.extension?.getD []
  let forTemplates := finder.kind.isTemplate
  { path, extension
    inPublic := finder.project.isPublic path
    viewsDir := if forTemplates then Convention.viewsDir? finder.project path else none
    controller := if forTemplates then Convention.controllerName? finder.project path else none
    declaresLayout := finder.kind = .layout && extension = "rb".toList &&
      Call.declaresLayout content }

/-- The name by which declarations and options know a target that is a layout. -/
def layoutName (finder : Finder) : List Char :=
  (Convention.layoutName? finder.project.layoutsDir finder.target).getD finder.target.stem

end Finder

end AssetUsage
