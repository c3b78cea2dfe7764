import AssetUsage.Proofs.Path.Climbing
import AssetUsage.Proofs.Project.Canonical
import AssetUsage.Proofs.Text.Runs
import AssetUsage.Reference

/-!
# References from the document root

A reference that starts with a separator, and every reference on a page at the root of the site,
asks for a path below the document root (`sitePath?`). All ways of asking for it lead to the same
place (`routes_agree`). The path is put behind the document root and normalised as any other, so
`..` may lead out of it: it does unless the path comes down through the names that it has left
(`rootRelative_isPublic_iff`).
-/

namespace AssetUsage.Reference

open AssetUsage.Path (NamesEntry)
open AssetUsage.Text (StopsAt)

/-- The character starts neither a query nor a fragment. -/
def isUndecorated (c : Char) : Bool := c != '?' && c != '#'

/-- A reference is cleaned up to its query or fragment. -/
theorem clean?_eq_some_iff {reference cleaned : List Char} :
    clean? reference = some cleaned ↔
      (isExternal (Text.trim reference) = false ∧ isInterpolated (Text.trim reference) = false) ∧
        cleaned ≠ [] ∧ (Text.trim reference).takeWhile isUndecorated = cleaned := by
  have cut : (Text.trim reference).takeWhile (fun c => c != '?' && c != '#') =
      (Text.trim reference).takeWhile isUndecorated := rfl
  by_cases outside : isExternal (Text.trim reference) || isInterpolated (Text.trim reference)
  · rcases Bool.or_eq_true_iff.1 outside with outside | outside <;> simp [clean?, outside]
  · obtain ⟨here, plain⟩ := Bool.or_eq_false_iff.1 (Bool.eq_false_iff.2 outside)
    simp only [clean?, here, plain, cut, Bool.or_self, Bool.false_eq_true, ↓reduceIte, and_self,
      true_and]
    cases (Text.trim reference).takeWhile isUndecorated with
    | nil =>
      refine iff_of_false (Option.some_ne_none cleaned).symm ?_
      rintro ⟨nonempty, same⟩
      exact nonempty same.symm
    | cons c rest =>
      rw [Option.some.injEq]
      refine (and_iff_right_of_imp ?_).symm
      rintro rfl
      exact List.cons_ne_nil c rest

/-- Behind a separator, only a second one makes a reference lead to another host. -/
theorem isExternal_cons_separator (text : List Char) :
    isExternal ('/' :: text) = (text.head? == some '/') := by
  have noScheme : externalSchemes.any (·.isPrefixOf (('/' :: text).map Char.toLower)) = false := by
    rfl
  rw [isExternal, noScheme, Bool.or_false]
  cases text with
  | nil => rfl
  | cons c rest => simp [List.isPrefixOf, eq_comm]

/-- A separator in front is no part of what is computed when the page is made. -/
theorem isInterpolated_cons_separator (text : List Char) :
    isInterpolated ('/' :: text) = isInterpolated text := rfl

/-- A cleaned reference is the front of the trimmed one, up to a query or a fragment. -/
theorem exists_of_clean? {reference cleaned : List Char}
    (found : clean? reference = some cleaned) :
    ∃ decoration, Text.trim reference = cleaned ++ decoration ∧ cleaned ≠ [] ∧
      ∀ c ∈ cleaned, isUndecorated c = true := by
  obtain ⟨-, nonempty, rfl⟩ := clean?_eq_some_iff.1 found
  exact ⟨_, List.takeWhile_append_dropWhile.symm, nonempty, fun _ => List.mem_takeWhile_imp⟩

/-- A cleaned reference that starts with a separator has no second one behind it. -/
theorem stopsAt_separator_of_clean? {reference rest : List Char}
    (found : clean? reference = some ('/' :: rest)) : StopsAt (· == '/') rest := by
  obtain ⟨⟨here, -⟩, -⟩ := clean?_eq_some_iff.1 found
  obtain ⟨decoration, whole, -⟩ := exists_of_clean? found
  rw [whole, List.cons_append, isExternal_cons_separator] at here
  rintro c others rfl
  simpa using here

/-- A reference without a separator in front has none there when it is cleaned. -/
theorem stopsAt_of_clean? {reference cleaned : List Char}
    (trimmed : Text.trim reference = reference) (relative : reference.head? ≠ some '/')
    (found : clean? reference = some cleaned) : StopsAt (· == '/') cleaned := by
  obtain ⟨decoration, whole, -⟩ := exists_of_clean? found
  rintro c rest rfl
  rw [← trimmed, whole] at relative
  simpa using relative

/-- A separator in front of a reference that has none stays there when it is cleaned. -/
theorem clean?_cons_separator {reference cleaned : List Char}
    (trimmed : Text.trim reference = reference) (relative : reference.head? ≠ some '/')
    (found : clean? reference = some cleaned) :
    clean? ('/' :: reference) = some ('/' :: cleaned) := by
  obtain ⟨⟨-, plain⟩, -, same⟩ := clean?_eq_some_iff.1 found
  have trimmedWhole : Text.trim ('/' :: reference) = '/' :: reference :=
    Text.trim_cons (by decide) trimmed
  rw [trimmed] at plain same
  refine clean?_eq_some_iff.2 ?_
  rw [trimmedWhole, isExternal_cons_separator, isInterpolated_cons_separator,
    List.takeWhile_cons_of_pos (by decide), same]
  exact ⟨⟨by simpa using relative, plain⟩, List.cons_ne_nil _ _, rfl⟩

/-- A beginning of one class of characters ends in front of what does not go on with it. -/
theorem prefix_of_prefix_append {isInStart : Char → Bool} {start front behind : List Char}
    (inside : ∀ c ∈ start, isInStart c = true) (stops : StopsAt isInStart behind)
    (begins : start <+: front ++ behind) : start <+: front := by
  rcases List.prefix_or_prefix_of_prefix begins (List.prefix_append front behind) with
    inFront | ⟨more, rfl⟩
  · exact inFront
  · have beyond : more <+: behind := (List.prefix_append_right_inj front).1 begins
    cases more with
    | nil => exact ⟨[], by simp⟩
    | cons c rest =>
      have outside := stops.of_prefix beyond c rest rfl
      rw [inside c (List.mem_append_right _ List.mem_cons_self)] at outside
      contradiction

/-- The character may stand in what leads to another host: it starts no query, no fragment and no
extension. -/
def isInOrigin (c : Char) : Bool := isUndecorated c && c != '.'

/-- What leads to another host does not go on with a decoration. -/
theorem stopsAt_isInOrigin {decoration : List Char} (decorates : StopsAt isUndecorated decoration) :
    StopsAt isInOrigin decoration := by
  rintro c rest rfl
  rw [isInOrigin, decorates c rest rfl, Bool.false_and]

/-- What leads to another host in lower case stops where it does. -/
theorem stopsAt_map_toLower {behind : List Char} (stops : StopsAt isInOrigin behind) :
    StopsAt isInOrigin (behind.map Char.toLower) := by
  cases behind with
  | nil => exact .nil
  | cons c rest =>
    have starts : c = '?' ∨ c = '#' ∨ c = '.' := by
      have outside := stops c rest rfl
      simp only [isInOrigin, isUndecorated, Bool.and_eq_false_iff, bne_eq_false_iff_eq] at outside
      rwa [or_assoc] at outside
    rcases starts with rfl | rfl | rfl <;> exact .cons (by decide)

/-- What stands in front of a query, a fragment or an extension says whether a reference leads to
another host. -/
theorem isExternal_append {front behind : List Char} (stops : StopsAt isInOrigin behind)
    (external : isExternal (front ++ behind) = true) (other : List Char) :
    isExternal (front ++ other) = true := by
  have plainSlashes : ∀ c ∈ "//".toList, isInOrigin c = true := List.all_eq_true.1 (by decide)
  have plainScheme : ∀ scheme ∈ externalSchemes, ∀ c ∈ scheme, isInOrigin c = true :=
    fun scheme mem => List.all_eq_true.1 (List.all_eq_true.1
      (by decide : externalSchemes.all (·.all isInOrigin) = true) scheme mem)
  simp only [isExternal, Bool.or_eq_true, List.any_eq_true, List.isPrefixOf_iff_prefix,
    List.map_append] at external ⊢
  rcases external with slashes | ⟨scheme, listed, begins⟩
  · have inFront := prefix_of_prefix_append plainSlashes stops slashes
    exact .inl (inFront.trans (List.prefix_append _ _))
  · have inFront := prefix_of_prefix_append (plainScheme scheme listed)
      (stopsAt_map_toLower stops) begins
    exact .inr ⟨scheme, listed, inFront.trans (List.prefix_append _ _)⟩

/-- A query or a fragment behind a cleaned reference is taken away again. -/
theorem clean?_append_decoration {reference cleaned decoration : List Char}
    (found : clean? reference = some cleaned) (decorates : StopsAt isUndecorated decoration)
    (trimmed : Text.trim (cleaned ++ decoration) = cleaned ++ decoration)
    (plain : isInterpolated (cleaned ++ decoration) = false) :
    clean? (cleaned ++ decoration) = some cleaned := by
  obtain ⟨⟨here, -⟩, -⟩ := clean?_eq_some_iff.1 found
  obtain ⟨first, whole, nonempty, inside⟩ := exists_of_clean? found
  rw [whole] at here
  have stays : isExternal (cleaned ++ decoration) = false :=
    Bool.eq_false_iff.2 fun external =>
      Bool.eq_false_iff.1 here (isExternal_append (stopsAt_isInOrigin decorates) external first)
  refine clean?_eq_some_iff.2 ?_
  rw [trimmed, Text.takeWhile_run inside decorates]
  exact ⟨⟨stays, plain⟩, nonempty, rfl⟩

/-- The path that a reference asks for at the root of the site. -/
def sitePath? (reference : List Char) : Option Path :=
  (clean? reference).map fun cleaned => ⟨cleaned.dropWhile (· == '/')⟩

/-- On a page at the root of the site a reference leads to what it asks for. -/
theorem resolveFromSite?_eq (project : Project) (reference : List Char) :
    resolveFromSite? project reference =
      (sitePath? reference).map fun asked => (project.publicDir.join asked).normalize := by
  rw [resolveFromSite?, sitePath?, Option.map_map]
  rfl

/-- What is asked for is a relative path. -/
theorem isAbsolute_of_sitePath? {reference : List Char} {asked : Path}
    (found : sitePath? reference = some asked) : asked.isAbsolute = false := by
  obtain ⟨cleaned, -, rfl⟩ := Option.map_eq_some_iff.1 found
  have stops : StopsAt (· == '/') (cleaned.dropWhile (· == '/')) := Text.stopsAt_dropWhile cleaned
  cases left : cleaned.dropWhile (· == '/') with
  | nil => rfl
  | cons c rest => simpa [Path.isAbsolute] using stops c rest left

/-- A reference that starts with a separator leads from everywhere to what it asks for at the root
of the site. -/
theorem resolve?_eq_resolveFromSite? (project : Project) {reference : List Char}
    (separator : (Text.trim reference).head? = some '/') (file : Path) :
    resolve? project reference file = resolveFromSite? project reference := by
  cases found : clean? reference with
  | none => simp [resolve?, resolveFromSite?, found]
  | some cleaned =>
    obtain ⟨decoration, whole, nonempty, -⟩ := exists_of_clean? found
    obtain ⟨c, rest, rfl⟩ := List.exists_cons_of_ne_nil nonempty
    rw [whole, List.cons_append, List.head?_cons, Option.some.injEq] at separator
    subst separator
    have stops := stopsAt_separator_of_clean? found
    simp [resolve?, resolveFromSite?, found, stops.dropWhile_eq_self]

/-- All ways of asking for a reference at the root of the site lead to the place: from anywhere with
a separator in front, from a file with the given name in the document root, and on a page at the
root of the site, with a separator or without one. -/
structure RoutesLeadTo (project : Project) (reference : List Char) (file : Path)
    (name : Segment) (place : Path) : Prop where
  rootRelative : resolve? project ('/' :: reference) file = some place
  fromDocumentRoot : resolve? project reference (project.publicDir.join ⟨name⟩) = some place
  fromSite : resolveFromSite? project reference = some place
  fromSiteRootRelative : resolveFromSite? project ('/' :: reference) = some place

/-- What a cleaned reference without a separator in front asks for. -/
theorem sitePath?_eq_of_clean? {reference cleaned : List Char}
    (trimmed : Text.trim reference = reference) (relative : reference.head? ≠ some '/')
    (found : clean? reference = some cleaned) :
    sitePath? reference = some ⟨cleaned⟩ ∧ sitePath? ('/' :: reference) = some ⟨cleaned⟩ := by
  have stops := stopsAt_of_clean? trimmed relative found
  have cleanedBehind := clean?_cons_separator trimmed relative found
  constructor
  · rw [sitePath?, found, Option.map_some, stops.dropWhile_eq_self]
  · rw [sitePath?, cleanedBehind, Option.map_some, List.dropWhile_cons_of_pos rfl,
      stops.dropWhile_eq_self]

/-- A reference without blanks around it and without a separator in front leads on all routes to its
cleaned text behind the document root. -/
theorem routesLeadTo_of_clean? {project : Project} {reference cleaned : List Char}
    {name : Segment} (canonical : project.IsCanonical)
    (found : clean? reference = some cleaned) (trimmed : Text.trim reference = reference)
    (relative : reference.head? ≠ some '/') (named : NamesEntry name) (file : Path) :
    RoutesLeadTo project reference file name (project.publicDir.join ⟨cleaned⟩).normalize := by
  obtain ⟨asked, askedBehind⟩ := sitePath?_eq_of_clean? trimmed relative found
  have site : resolveFromSite? project reference =
      some (project.publicDir.join ⟨cleaned⟩).normalize := by
    rw [resolveFromSite?_eq, asked, Option.map_some]
  have siteBehind : resolveFromSite? project ('/' :: reference) =
      some (project.publicDir.join ⟨cleaned⟩).normalize := by
    rw [resolveFromSite?_eq, askedBehind, Option.map_some]
  have separator : (Text.trim ('/' :: reference)).head? = some '/' := by
    rw [Text.trim_cons (by decide) trimmed, List.head?_cons]
  refine ⟨?_, ?_, site, siteBehind⟩
  · rw [resolve?_eq_resolveFromSite? project separator file, siteBehind]
  · have parent := canonical.publicFiles.parent?_join_name named
    have stops := stopsAt_of_clean? trimmed relative found
    rw [resolve?, found, parent]
    simp only [Option.bind_eq_bind, Option.bind_some]
    split
    · next rest =>
      have separator := stops '/' rest rfl
      contradiction
    · rfl

/-- A reference without blanks around it and without a separator in front leads to the same place on
all routes, and so does its cleaned text with any query and fragment behind it. -/
theorem routes_agree {project : Project} {reference cleaned : List Char} {name : Segment}
    (canonical : project.IsCanonical) (found : clean? reference = some cleaned)
    (trimmed : Text.trim reference = reference) (relative : reference.head? ≠ some '/')
    (named : NamesEntry name) (file : Path) :
    RoutesLeadTo project reference file name (project.publicDir.join ⟨cleaned⟩).normalize ∧
      ∀ decoration, StopsAt isUndecorated decoration →
        Text.trim (cleaned ++ decoration) = cleaned ++ decoration →
        isInterpolated (cleaned ++ decoration) = false →
        RoutesLeadTo project (cleaned ++ decoration) file name
          (project.publicDir.join ⟨cleaned⟩).normalize := by
  refine ⟨routesLeadTo_of_clean? canonical found trimmed relative named file, ?_⟩
  intro decoration decorates trimmedWhole plain
  have foundWhole := clean?_append_decoration found decorates trimmedWhole plain
  have relativeWhole : (cleaned ++ decoration).head? ≠ some '/' := by
    obtain ⟨first, whole, nonempty, -⟩ := exists_of_clean? found
    rw [← trimmed, whole, List.head?_append_of_ne_nil _ nonempty] at relative
    rwa [List.head?_append_of_ne_nil _ nonempty]
  exact routesLeadTo_of_clean? canonical foundWhole trimmedWhole relativeWhole named file

/-- An image is found on all routes from a page below the document root, whatever version of it is
asked for. -/
theorem routes_agree_of_versioned :
    let project := Project.conventional (.ofString "/p")
    let file := Path.ofString "/p/app/views/users/index.html.erb"
    RoutesLeadTo project "images/../logo.png?1".toList file "index.html".toList
        (.ofString "/p/public/logo.png") ∧
      RoutesLeadTo project "images/../logo.png#top".toList file "index.html".toList
        (.ofString "/p/public/logo.png") :=
  have canonical : (Project.conventional (.ofString "/p")).IsCanonical := by decide +kernel
  have named : NamesEntry "index.html".toList := by decide
  have agree := routes_agree canonical
    (by decide +kernel : clean? "images/../logo.png?1".toList = some "images/../logo.png".toList)
    (by decide +kernel) (by decide) named (.ofString "/p/app/views/users/index.html.erb")
  have place : ((Project.conventional (.ofString "/p")).publicDir.join
      ⟨"images/../logo.png".toList⟩).normalize = .ofString "/p/public/logo.png" := by decide +kernel
  ⟨place ▸ agree.1,
    place ▸ agree.2 "#top".toList (.cons (by decide)) (by decide +kernel) (by decide +kernel)⟩

/-- The reference leads to the path as one from the document root: from the file by a separator in
front, or from a page at the root of the site. -/
def LeadsFromRoot (project : Project) (reference : List Char) (file path : Path) : Prop :=
  (Text.trim reference).head? = some '/' ∧ resolve? project reference file = some path ∨
    resolveFromSite? project reference = some path

/-- A reference from the document root takes away as many names of it as the path that is asked for
climbs, and leads to a public path exactly if that path comes down again through them, in particular
if no part at its front has more parents than names. -/
theorem rootRelative_isPublic_iff {project : Project} {reference : List Char} {file path : Path}
    (canonical : project.IsCanonical) (leads : LeadsFromRoot project reference file path) :
    ∃ asked, sitePath? reference = some asked ∧
      path = Path.assemble .root (project.publicDir.namesKept asked ++ asked.descent) ∧
      (project.isPublic path = true ↔ project.publicDir.namesLeft asked <+: asked.descent) ∧
      ((∀ front, front <+: asked.components →
          front.count .parent ≤ front.countP Path.Component.isName) →
        project.isPublic path = true) := by
  have site : resolveFromSite? project reference = some path := by
    rcases leads with ⟨separator, resolved⟩ | resolved
    · rwa [resolve?_eq_resolveFromSite? project separator] at resolved
    · exact resolved
  rw [resolveFromSite?_eq, Option.map_eq_some_iff] at site
  obtain ⟨asked, found, rfl⟩ := site
  have relative := isAbsolute_of_sitePath? found
  have stays : project.isPublic (project.publicDir.join asked).normalize = true ↔
      project.publicDir.namesLeft asked <+: asked.descent :=
    Path.startsWith_normalize_join_iff canonical.publicFiles relative
  refine ⟨asked, found, Path.normalize_join_eq canonical.publicFiles relative, stays, ?_⟩
  intro balanced
  have noClimb : asked.climb = 0 := Path.climb_eq_zero_iff.2 balanced
  have nothingLeft : project.publicDir.namesLeft asked = [] := by
    rw [Path.namesLeft, noClimb, Nat.sub_zero, List.drop_length]
  rw [stays, nothingLeft]
  exact List.nil_prefix

/-- A reference that leaves the document root and comes down into it again leads to a public
path. -/
theorem rootRelative_isPublic_of_detour :
    LeadsFromRoot (.conventional (.ofString "/p")) "/../public/main.css".toList
        (.ofString "/p/public/index.html") (.ofString "/p/public/main.css") ∧
      (Project.conventional (.ofString "/p")).isPublic (.ofString "/p/public/main.css") = true := by
  have canonical : (Project.conventional (.ofString "/p")).IsCanonical := by decide +kernel
  have leads : LeadsFromRoot (.conventional (.ofString "/p")) "/../public/main.css".toList
      (.ofString "/p/public/index.html") (.ofString "/p/public/main.css") :=
    .inl (by decide +kernel)
  obtain ⟨asked, found, -, stays, -⟩ := rootRelative_isPublic_iff canonical leads
  obtain rfl : Path.ofString "../public/main.css" = asked := by
    have same : sitePath? "/../public/main.css".toList = some (.ofString "../public/main.css") := by
      decide +kernel
    exact Option.some.inj (same.symm.trans found)
  exact ⟨leads, stays.2 (by decide +kernel)⟩

/-- A reference from the document root may lead to a file beside it. -/
theorem rootRelative_leaves_documentRoot :
    ¬ ∀ (project : Project) (reference : List Char) (file path : Path), project.IsCanonical →
      LeadsFromRoot project reference file path → project.isPublic path = true := by
  intro claim
  have canonical : (Project.conventional (.ofString "/p")).IsCanonical := by decide +kernel
  have leads : LeadsFromRoot (.conventional (.ofString "/p")) "/../secret.png".toList
      (.ofString "/p/public/index.html") (.ofString "/p/secret.png") :=
    .inl (by decide +kernel)
  have stays := claim _ _ _ _ canonical leads
  exact absurd stays (by decide +kernel)

end AssetUsage.Reference
