import AssetUsage.Call.Helper
import AssetUsage.Call.Render
import AssetUsage.Finder.Basic
import AssetUsage.Markup
import AssetUsage.Reference
import AssetUsage.Style

/-!
# Lines that use a target

For each kind of target and each extension of a candidate some forms of reference count: helper
calls and tags, imports and images of stylesheets, render calls, and the declared or implicit layout
of a controller. A line uses the target if a reference on it resolves to the target.
-/

namespace AssetUsage.Finder

variable (finder : Finder) (candidate : Candidate) (line : List Char)

/-- A helper with the name `name` gives the target, in `dir` and with the extension added. -/
def isNamedAsset (dir : Path) (extension : Option (List Char)) (name : List Char) : Bool :=
  finder.isNamed (Reference.resolveAsset? finder.project name dir extension)

/-- The target lies directly in the directory. -/
def isDirectlyIn (dir : Path) : Bool := finder.target.parent?.any fun parent =>
  decide (parent.SamePath dir)

/-- The arguments of all calls of a helper on the line. -/
def argumentsOf (helper : String) : List Call.Argument :=
  (Call.helperCalls line helper.toList).flatten

/-- A call of the stylesheet helper names the target, or all stylesheets. -/
def inStylesheetHelper : Bool :=
  let dir := finder.project.stylesheetsDir
  (argumentsOf line "stylesheet_link_tag").any fun
    | .literal name => finder.isNamedAsset dir (some "css".toList) name
    | .symbol name => name == "all".toList && finder.isDirectlyIn dir

/-- The scripts that the name `:defaults` stands for. -/
def defaultScripts : List (List Char) :=
  ["prototype", "effects", "dragdrop", "controls", "application"].map String.toList

/-- A call of the script helper names the target, the default scripts or all scripts. -/
def inScriptHelper : Bool :=
  let dir := finder.project.javascriptsDir
  let isNamedScript := finder.isNamedAsset dir (some "js".toList)
  (argumentsOf line "javascript_include_tag").any fun
    | .literal name => isNamedScript name
    | .symbol name =>
      name == "defaults".toList && defaultScripts.any isNamedScript ||
        name == "all".toList && finder.isDirectlyIn dir

/-- The helpers that take the name of an image. -/
def imageHelpers : List String := ["image_tag", "image_path", "image_submit_tag"]

/-- A call of an image helper names the target. -/
def inImageHelper : Bool :=
  imageHelpers.any fun helper =>
    (argumentsOf line helper).any fun
      | .literal name => finder.isNamedAsset finder.project.imagesDir none name
      | .symbol _ => false

/-- A URL in the candidate leads to the target. -/
def isNamedUrl (reference : List Char) : Bool :=
  finder.isNamed (Reference.resolve? finder.project reference candidate.path)

/-- A tag with a name has the target as the value of the attribute `key`. -/
def inTag (name key : String) : Bool :=
  (Markup.tagsNamed line name.toList).any fun tag =>
    (tag.attributes.get? key.toList).any (finder.isNamedUrl candidate)

/-- The tag links a stylesheet. -/
def linksStylesheet (tag : Markup.Tag) : Bool :=
  (tag.attributes.get? "rel".toList).any fun relation =>
    (Text.trim relation).map Char.toLower == "stylesheet".toList

/-- A `link` tag links the target as a stylesheet. -/
def inLinkTag : Bool :=
  (Markup.tagsNamed line "link".toList).any fun tag =>
    linksStylesheet tag && (tag.attributes.get? "href".toList).any (finder.isNamedUrl candidate)

/-- A URL on a page leads to the target: a page outside the public files stands at the root of the
site. -/
def isNamedByPage (reference : List Char) : Bool :=
  if candidate.inPublic then finder.isNamedUrl candidate reference
  else finder.isNamed (Reference.resolveFromSite? finder.project reference)

/-- A tag of any name has the target as its source or its link. -/
def inSourceOrLink : Bool :=
  (Markup.tags line).any fun tag =>
    ["src", "href"].any fun key =>
      (tag.attributes.get? key.toList).any (finder.isNamedByPage candidate)

/-- The line imports the target. -/
def inImport : Bool := (Style.importedNames line).any (finder.isNamedUrl candidate)

/-- The line shows the target as an image. -/
def inStyleImage : Bool := (Style.imageNames line).any (finder.isNamedUrl candidate)

/-- The reference names the target as a template, an action or a file. -/
def isRendered (reference : Call.RenderReference) : Bool :=
  match reference.key with
  | .template => finder.target.namedBy (finder.project.viewsDir.absolutize ⟨reference.name⟩)
  | .action => candidate.viewsDir.any fun dir =>
      finder.target.namedBy (dir.absolutize ⟨reference.name⟩)
  | .file => finder.isTarget (finder.project.absolutize ⟨reference.name⟩)
  | .partialTemplate | .layout => false

/-- A render call shows the target. -/
def inRenderCall : Bool := (Call.renderReferences line).any (finder.isRendered candidate)

/-- The path of a partial: its last component starts with `_`. -/
def underscored? (path : Path) : Option Path := do
  let name ← path.fileName?
  let parent ← path.parent?
  return (parent.join ⟨'_' :: name⟩).normalize

/-- The reference names the target as a partial. -/
def isRenderedPartial (reference : Call.RenderReference) : Bool :=
  let dir := if '/' ∈ reference.name then some finder.project.viewsDir else candidate.viewsDir
  let logical := dir.bind fun dir => underscored? (dir.absolutize ⟨reference.name⟩)
  reference.key = .partialTemplate && logical.any finder.target.namedBy

/-- A render call shows the target as a partial. -/
def inPartialCall : Bool := (Call.renderReferences line).any (finder.isRenderedPartial candidate)

/-- A render call chooses the target as the layout. -/
def inLayoutOption : Bool :=
  (Call.renderReferences line).any fun reference =>
    reference.key = .layout && reference.name = finder.layoutName

/-- The line declares the target as the layout. -/
def inLayoutDeclaration : Bool := Call.declaredLayout? line == some finder.layoutName

/-- The line opens the class of a controller that declares no layout and gets the target, which is
its own layout or the one of all controllers. -/
def inImplicitLayout : Bool :=
  candidate.controller.any fun name =>
    !candidate.declaresLayout && Call.isControllerClass line &&
      (finder.layoutName = name || finder.layoutName = Convention.defaultLayout)

/-- The line of the candidate uses the target. -/
def usedBy : Bool :=
  let code := AssetKind.codeExtensions.contains candidate.extension
  let page := AssetKind.pageExtensions.contains candidate.extension
  let sheet := AssetKind.sheetExtensions.contains candidate.extension
  let rendering := AssetKind.renderingExtensions.contains candidate.extension
  match finder.kind with
  | .stylesheet =>
    code && finder.inStylesheetHelper line || (code || page) && finder.inLinkTag candidate line ||
      sheet && finder.inImport candidate line
  | .javascript =>
    code && finder.inScriptHelper line ||
      (code || page) && finder.inTag candidate line "script" "src"
  | .image =>
    code && finder.inImageHelper line ||
      (code || page) && finder.inTag candidate line "img" "src" ||
      sheet && finder.inStyleImage candidate line
  | .template => rendering && finder.inRenderCall candidate line
  | .partialTemplate =>
    rendering && (finder.inRenderCall candidate line || finder.inPartialCall candidate line)
  | .layout =>
    rendering && (finder.inRenderCall candidate line || finder.inLayoutOption line) ||
      candidate.extension = "rb".toList &&
        (finder.inLayoutDeclaration line || finder.inImplicitLayout candidate line)
  | .publicFile => (code || page) && finder.inSourceOrLink candidate line

/-- The lines of the content that use the target, with their numbers from 1 on. -/
def usingLinesOf (content : List Char) : List (List Char × Nat) :=
  ((Text.lines content).zipIdx 1).filter fun (line, _) => finder.usedBy candidate line

/-- The numbers of the lines of the content that use the target. -/
def usingLines (content : List Char) : List Nat :=
  (finder.usingLinesOf candidate content).map (·.2)

end AssetUsage.Finder
