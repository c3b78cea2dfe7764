import AssetUsage.Path.Name
import AssetUsage.Project

/-!
# Naming conventions

Controllers, their views and their layouts belong together by name: the controller `admin/users` is
`admin/users_controller.rb` in the directory of controllers, its views are in `admin/users` below
the views, and its own layout is `admin/users` with any extensions in the directory of layouts.
-/

namespace AssetUsage.Convention

/-- The end of the file name of a controller. -/
def controllerSuffix : List Char := "_controller.rb".toList

/-- The name in front of a suffix of the text. -/
def beforeSuffix? (suffix text : List Char) : Option (List Char) :=
  if suffix.isSuffixOf text then some (text.take (text.length - suffix.length)) else none

/-- The name of the controller in a file, if the file is one by its path. -/
def controllerName? (project : Project) (file : Path) : Option (List Char) := do
  let name ← beforeSuffix? controllerSuffix (← file.relativeTo? project.controllersDir)
  if name = [] ∨ name.getLast? = some '/' then none else some name

/-- The directory in which a file finds views that it names without a directory: the one named
after the controller, or the file's own directory below the views. -/
def viewsDir? (project : Project) (file : Path) : Option Path :=
  match controllerName? project file with
  | some name => some (project.viewsDir.join ⟨name⟩)
  | none => if file.startsWith project.viewsDir then file.parent? else none

/-- The name of a layout by its path below the directory of layouts. -/
def layoutName? (layoutsDir target : Path) : Option (List Char) :=
  match target.withoutExtensions.stripPrefix? layoutsDir with
  | some relative => if relative.text = [] then none else some relative.shown
  | none => none

/-- The layout of every controller that has none of its own. -/
def defaultLayout : List Char := "application".toList

end AssetUsage.Convention
