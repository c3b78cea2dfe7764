import AssetUsage.Project
import AssetUsage.Text.Basic

/-!
# References

A reference is the text by which a file names an asset: a URL in markup or in a stylesheet, or the
name given to a helper. It is turned into the path that it names, and only that path is ever
compared with a target. A reference that leads out of the tree, or whose text is only known when
the page is made, names nothing.
-/

namespace AssetUsage.Reference

/-- Beginnings of URLs that lead out of the tree. -/
def externalSchemes : List (List Char) :=
  ["http:", "https:", "ftp:", "data:", "mailto:", "javascript:"].map String.toList

/-- The reference leads to another host. -/
def isExternal (reference : List Char) : Bool :=
  "//".toList.isPrefixOf reference ||
    externalSchemes.any (·.isPrefixOf (reference.map Char.toLower))

/-- The part stands somewhere in the text. -/
def occursIn (part : List Char) : List Char → Bool
  | [] => part.isEmpty
  | c :: rest => part.isPrefixOf (c :: rest) || occursIn part rest

/-- The reference holds a part that is computed when the page is made. -/
def isInterpolated (reference : List Char) : Bool :=
  occursIn "#\x7b".toList reference || occursIn "<%".toList reference

/-- The reference without blanks around it and without query and fragment, if it can name a file of
the tree. -/
def clean? (reference : List Char) : Option (List Char) :=
  let reference := Text.trim reference
  if isExternal reference || isInterpolated reference then none
  else
    match reference.takeWhile fun c => c != '?' && c != '#' with
    | [] => none
    | cleaned => some cleaned

/-- The file that a reference in `file` names: below the document root if the reference starts with
a separator, else relative to the directory of `file`. -/
def resolve? (project : Project) (reference : List Char) (file : Path) : Option Path := do
  let cleaned ← clean? reference
  match cleaned with
  | '/' :: rest => some (project.publicDir.join ⟨rest⟩).normalize
  | _ => some ((← file.parent?).absolutize ⟨cleaned⟩)

/-- The file that a reference on a page at the root of the site names. -/
def resolveFromSite? (project : Project) (reference : List Char) : Option Path :=
  (clean? reference).map fun cleaned =>
    (project.publicDir.join ⟨cleaned.dropWhile (· == '/')⟩).normalize

/-- The name with the extension, which is added unless the name ends with it. -/
def withExtension (name : List Char) : Option (List Char) → List Char
  | none => name
  | some extension =>
    let suffix := '.' :: extension
    if suffix.isSuffixOf name then name else name ++ suffix

/-- The file that a name given to a helper names: below the document root if it starts with a
separator, else below the directory of the helper's assets. -/
def resolveAsset? (project : Project) (name : List Char) (assetDir : Path)
    (extension : Option (List Char)) : Option Path :=
  (clean? name).map fun cleaned =>
    match cleaned, withExtension cleaned extension with
    | '/' :: _, _ :: fileName => (project.publicDir.join ⟨fileName⟩).normalize
    | _, fileName => (assetDir.join ⟨fileName⟩).normalize

end AssetUsage.Reference
