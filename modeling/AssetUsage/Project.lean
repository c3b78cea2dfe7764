import AssetUsage.Path.Name
import AssetUsage.Tree.Basic

/-!
# Projects

A project is a root directory with the places of its views, layouts, controllers and public files.
By convention these lie below the root; each can be moved on its own, and a moved directory is
spelled normally. The assets that helpers know by name lie in three directories below the public
one. A project is opened at a directory of a file tree, whose canonical path becomes its root.
-/

namespace AssetUsage

/-- The root directory of a project and its conventional directories. -/
structure Project where
  root : Path
  viewsDir : Path
  layoutsDir : Path
  controllersDir : Path
  publicDir : Path
deriving DecidableEq, Repr

namespace Project

/-- The project with every directory in its conventional place. -/
def conventional (root : Path) : Project where
  root := root
  viewsDir := root.join (.ofString "app/views")
  layoutsDir := root.join (.ofString "app/views/layouts")
  controllersDir := root.join (.ofString "app/controllers")
  publicDir := root.join (.ofString "public")

/-- A path of the user's, relative to the root. -/
def absolutize (project : Project) (path : Path) : Path := Path.absolutize project.root path

/-- The project with its views elsewhere; the layouts stay. -/
def withViews (project : Project) (dir : Path) : Project :=
  { project with viewsDir := project.absolutize dir }

/-- The project with its layouts elsewhere. -/
def withLayouts (project : Project) (dir : Path) : Project :=
  { project with layoutsDir := project.absolutize dir }

/-- The project with its controllers elsewhere. -/
def withControllers (project : Project) (dir : Path) : Project :=
  { project with controllersDir := project.absolutize dir }

/-- The project with its public files elsewhere. -/
def withPublic (project : Project) (dir : Path) : Project :=
  { project with publicDir := project.absolutize dir }

/-- Directories that replace conventional ones. -/
structure Overrides where
  views : Option Path := none
  layouts : Option Path := none
  controllers : Option Path := none
  publicFiles : Option Path := none
deriving DecidableEq, Repr

/-- The project with each overridden directory moved. -/
def override (project : Project) (overrides : Overrides) : Project :=
  let project := overrides.views.elim project project.withViews
  let project := overrides.layouts.elim project project.withLayouts
  let project := overrides.controllers.elim project project.withControllers
  overrides.publicFiles.elim project project.withPublic

/-- Where stylesheets named by helpers are. -/
def stylesheetsDir (project : Project) : Path := project.publicDir.join (.ofString "stylesheets")

/-- Where scripts named by helpers are. -/
def javascriptsDir (project : Project) : Path := project.publicDir.join (.ofString "javascripts")

/-- Where images named by helpers are. -/
def imagesDir (project : Project) : Path := project.publicDir.join (.ofString "images")

/-- The text that stands for a target of the user's in output. -/
def displayed (project : Project) (target : Path) : List Char :=
  (project.absolutize target).shownFrom project.root

/-- The path is the document root or lies below it. -/
def isPublic (project : Project) (path : Path) : Bool := path.startsWith project.publicDir

end Project

/-- Why no project was opened. -/
inductive OpenError where
  | rootNotFound (path : Path)
  | access (error : AccessError)
deriving DecidableEq, Repr

/-- The text of an error. -/
def OpenError.message : OpenError → List Char
  | .rootNotFound path => "project root not found: ".toList ++ path.text
  | .access error => "IO error: ".toList ++ error.message

/-- The errors that led to this one, the latest first. -/
def OpenError.causes : OpenError → List (List Char)
  | .rootNotFound _ => []
  | .access error => [error.message]

/-- The conventional project at a directory of the tree. -/
def Project.openAt (tree : Tree) (path : Path) : Except OpenError Project :=
  match tree.canonical path with
  | .error .missing => .error (.rootNotFound path)
  | .error error => .error (.access error)
  | .ok root =>
    if tree.isDirectory root then .ok (.conventional root) else .error (.rootNotFound path)

end AssetUsage
