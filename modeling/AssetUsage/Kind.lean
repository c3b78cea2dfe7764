import AssetUsage.Path.Name
import AssetUsage.Project

/-!
# Kinds of assets

The kind of a target is read off its path: the extension decides first, then the place of a
template, and any other file is an asset only below the document root. Each kind is searched for in
files with certain extensions.
-/

namespace AssetUsage

/-- What a target is. -/
inductive AssetKind where
  | stylesheet
  | javascript
  | image
  | template
  | partialTemplate
  | layout
  /-- Any other file that the site serves. -/
  | publicFile
deriving DecidableEq, Repr

namespace AssetKind

/-- The name of the kind in output. -/
def word : AssetKind → String
  | .stylesheet => "stylesheet"
  | .javascript => "javascript"
  | .image => "image"
  | .template => "template"
  | .partialTemplate => "partial"
  | .layout => "layout"
  | .publicFile => "public"

/-- The kind with a name. -/
def ofWord? (word : List Char) : Option AssetKind :=
  [stylesheet, javascript, image, template, partialTemplate, layout, publicFile].find?
    (·.word.toList == word)

/-- Extensions of files with code that calls helpers. -/
def codeExtensions : List (List Char) := ["rb", "erb", "rhtml"].map String.toList

/-- Extensions of static pages. -/
def pageExtensions : List (List Char) := ["html", "htm"].map String.toList

/-- Extensions of stylesheets. -/
def sheetExtensions : List (List Char) := ["css"].map String.toList

/-- Extensions of files that render templates. -/
def renderingExtensions : List (List Char) := ["rb", "erb", "rhtml", "rxml"].map String.toList

/-- Extensions of the files in which a target of the kind is searched for. -/
def extensions : AssetKind → List (List Char)
  | .stylesheet | .image => codeExtensions ++ pageExtensions ++ sheetExtensions
  | .javascript | .publicFile => codeExtensions ++ pageExtensions
  | .template | .partialTemplate | .layout => renderingExtensions

/-- Targets of the kind are referenced by render calls. -/
def isTemplate : AssetKind → Bool
  | .template | .partialTemplate | .layout => true
  | _ => false

/-- Extensions of images. -/
def imageExtensions : List (List Char) := ["png", "gif", "jpg"].map String.toList

/-- Extensions of templates. -/
def templateExtensions : List (List Char) := ["erb", "rhtml", "rxml"].map String.toList

/-- The kind of a template by its file name and its place. -/
def ofTemplate (project : Project) (target : Path) : AssetKind :=
  if (target.fileName?.bind (·.head?)) = some '_' then .partialTemplate
  else if target.startsWith project.layoutsDir then .layout
  else .template

/-- The kind of an absolute target, if it has one. -/
def ofTarget? (project : Project) (target : Path) : Option AssetKind :=
  let extension := target.extension?.getD []
  if extension = "css".toList then some .stylesheet
  else if extension = "js".toList then some .javascript
  else if extension ∈ imageExtensions then some .image
  else if extension ∈ templateExtensions then some (ofTemplate project target)
  else if project.isPublic target then some .publicFile
  else none

end AssetKind

end AssetUsage
