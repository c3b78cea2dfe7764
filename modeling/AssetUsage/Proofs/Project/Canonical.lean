import AssetUsage.Command.Run
import AssetUsage.Proofs.Path.Canonical

/-!
# Canonical projects

A project is opened at a canonical root, because a root is followed from name to name through
directories that are there (`isCanonical_of_openAt`). Its conventional directories lie behind the
root by names, and a directory that is moved is resolved from the root, so all of them are canonical
however the user spells them (`isCanonical_override`). Views that the command line moves take the
layouts with them (`layoutsDir_of_views`).
-/

namespace AssetUsage

open AssetUsage.Path (NamesEntry)

namespace Tree

variable {tree : Tree} {names reached segments : List Segment}

/-- One more segment leads to a place whose names can stand in directories. -/
theorem namesEntry_of_follow {segment : Segment} (named : ∀ name ∈ names, NamesEntry name)
    (plain : '/' ∉ segment) (followed : tree.follow names segment = .ok reached) :
    ∀ name ∈ reached, NamesEntry name := by
  unfold follow at followed
  split at followed
  · split at followed
    · obtain rfl := Except.ok.inj followed
      exact named
    · next significant =>
      have significant : Path.isSignificant segment = true := by simpa using significant
      split at followed
      · obtain rfl := Except.ok.inj followed
        exact fun name mem => named name (List.dropLast_subset names mem)
      · next other =>
        split at followed
        · contradiction
        · split at followed
          · obtain rfl := Except.ok.inj followed
            have added : NamesEntry segment := ⟨significant, other, plain⟩
            exact List.forall_mem_append.2 ⟨named, List.forall_mem_singleton.2 added⟩
          · contradiction
  · contradiction
  · contradiction

/-- So does one more segment of a canonical path. -/
theorem namesEntry_of_resolve {segment : Segment} (named : ∀ name ∈ names, NamesEntry name)
    (plain : '/' ∉ segment) (resolved : tree.resolve names segment = .ok reached) :
    ∀ name ∈ reached, NamesEntry name := by
  unfold resolve at resolved
  split at resolved
  · contradiction
  · exact namesEntry_of_follow named plain resolved

/-- Segments lead to a place whose names can stand in directories. -/
theorem namesEntry_of_foldlM_resolve (named : ∀ name ∈ names, NamesEntry name)
    (plain : ∀ segment ∈ segments, '/' ∉ segment)
    (resolved : segments.foldlM tree.resolve names = .ok reached) :
    ∀ name ∈ reached, NamesEntry name := by
  induction segments generalizing names with
  | nil =>
    obtain rfl := Except.ok.inj resolved
    exact named
  | cons first others ih =>
    rw [List.foldlM_cons] at resolved
    obtain ⟨firstPlain, othersPlain⟩ := List.forall_mem_cons.1 plain
    cases next : tree.resolve names first with
    | error error =>
      rw [next] at resolved
      contradiction
    | ok place =>
      rw [next] at resolved
      exact ih (namesEntry_of_resolve named firstPlain next) othersPlain resolved

/-- The segments on the way to a path hold no separators. -/
theorem separator_not_mem_of_route {path : Path} (routed : tree.route path = .ok segments) :
    ∀ segment ∈ segments, '/' ∉ segment := by
  have inBody (path : Path) : ∀ segment ∈ path.body, '/' ∉ segment := fun segment mem =>
    Path.separator_not_mem_of_mem_segments (Path.mem_segments_of_mem_body mem)
  unfold route at routed
  split at routed
  · contradiction
  · split at routed
    · contradiction
    · split at routed
      · exact Except.ok.inj routed ▸ inBody path
      · split at routed
        · next dir _ => exact Except.ok.inj routed ▸ inBody (dir.join path)
        · contradiction

/-- The canonical spelling of a place is canonical. -/
theorem isCanonical_of_canonical {path root : Path} (found : tree.canonical path = .ok root) :
    root.IsCanonical := by
  unfold canonical at found
  cases routed : tree.route path with
  | error error => simp [routed, bind, Except.bind] at found
  | ok segments =>
    cases resolved : segments.foldlM tree.resolve [] with
    | error error => simp [routed, resolved, bind, Except.bind] at found
    | ok names =>
      simp only [routed, resolved, bind, Except.bind, pure, Except.pure, Except.ok.injEq] at found
      have named := namesEntry_of_foldlM_resolve (fun name mem => absurd mem List.not_mem_nil)
        (separator_not_mem_of_route routed) resolved
      exact found ▸ Path.isCanonical_assemble named

end Tree

namespace Project

/-- A project is opened at a canonical root and is conventional. -/
theorem isCanonical_of_openAt {tree : Tree} {path : Path} {project : Project}
    (opened : openAt tree path = .ok project) :
    project.root.IsCanonical ∧ project = conventional project.root := by
  unfold openAt at opened
  split at opened
  · contradiction
  · contradiction
  · next root found =>
    split at opened
    · obtain rfl := Except.ok.inj opened
      exact ⟨Tree.isCanonical_of_canonical found, rfl⟩
    · contradiction

/-- The root and all directories of a project are canonical. -/
structure IsCanonical (project : Project) : Prop where
  root : project.root.IsCanonical
  views : project.viewsDir.IsCanonical
  layouts : project.layoutsDir.IsCanonical
  controllers : project.controllersDir.IsCanonical
  publicFiles : project.publicDir.IsCanonical

instance (project : Project) : Decidable project.IsCanonical :=
  decidable_of_iff (project.root.IsCanonical ∧ project.viewsDir.IsCanonical ∧
      project.layoutsDir.IsCanonical ∧ project.controllersDir.IsCanonical ∧
      project.publicDir.IsCanonical)
    ⟨fun h => ⟨h.1, h.2.1, h.2.2.1, h.2.2.2.1, h.2.2.2.2⟩,
      fun h => ⟨h.root, h.views, h.layouts, h.controllers, h.publicFiles⟩⟩

/-- A conventional project at a canonical root is canonical. -/
theorem isCanonical_conventional {root : Path} (canonical : root.IsCanonical) :
    (conventional root).IsCanonical :=
  have below (path : Path) (named : ∀ name ∈ path.segments, NamesEntry name) :
      (root.join path).IsCanonical := canonical.join_segments named
  { root := canonical
    views := below (.ofString "app/views") (by decide)
    layouts := below (.ofString "app/views/layouts") (by decide)
    controllers := below (.ofString "app/controllers") (by decide)
    publicFiles := below (.ofString "public") (by decide) }

/-- Each directory is moved on its own, to where its override leads from the root. -/
theorem override_eq (project : Project) (overrides : Overrides) :
    project.override overrides =
      { root := project.root
        viewsDir := overrides.views.elim project.viewsDir project.absolutize
        layoutsDir := overrides.layouts.elim project.layoutsDir project.absolutize
        controllersDir := overrides.controllers.elim project.controllersDir project.absolutize
        publicDir := overrides.publicFiles.elim project.publicDir project.absolutize } := by
  obtain ⟨views, layouts, controllers, publicFiles⟩ := overrides
  cases views <;> cases layouts <;> cases controllers <;> cases publicFiles <;> rfl

/-- Where an override leads is canonical, and so is a canonical directory that stays. -/
theorem isCanonical_elim {project : Project} {dir : Path} (absolute : project.root.IsCanonical)
    (canonical : dir.IsCanonical) (moved : Option Path) :
    (moved.elim dir project.absolutize).IsCanonical := by
  cases moved with
  | none => exact canonical
  | some path => exact Path.isCanonical_absolutize absolute.absolute path

/-- Overrides keep a project canonical, however they are spelled. -/
theorem isCanonical_override {project : Project} (canonical : project.IsCanonical)
    (overrides : Overrides) : (project.override overrides).IsCanonical := by
  rw [override_eq]
  exact ⟨canonical.root, isCanonical_elim canonical.root canonical.views _,
    isCanonical_elim canonical.root canonical.layouts _,
    isCanonical_elim canonical.root canonical.controllers _,
    isCanonical_elim canonical.root canonical.publicFiles _⟩

/-- The directories of the assets that helpers know by name are canonical. -/
theorem isCanonical_assetDirs {project : Project} (canonical : project.IsCanonical) :
    project.stylesheetsDir.IsCanonical ∧ project.javascriptsDir.IsCanonical ∧
      project.imagesDir.IsCanonical :=
  have below (path : Path) (named : ∀ name ∈ path.segments, NamesEntry name) :
      (project.publicDir.join path).IsCanonical := canonical.publicFiles.join_segments named
  ⟨below (.ofString "stylesheets") (by decide), below (.ofString "javascripts") (by decide),
    below (.ofString "images") (by decide)⟩

end Project

/-- What is joined to a path before or after it is resolved leads to the same place. -/
theorem Path.absolutize_join (base dir path : Path) :
    base.absolutize (dir.join path) = ((base.absolutize dir).join path).normalize := by
  rw [absolutize, absolutize, normalize_join_join, normalize_join_left]

/-- Views that the command line moves on their own take the layouts with them. -/
theorem Command.layoutsDir_of_views {invocation : Invocation} {root views : Path}
    (canonical : root.IsCanonical) (moved : invocation.viewsDir = some views)
    (unmoved : invocation.layoutsDir = none) :
    ((Project.conventional root).override invocation.overrides).layoutsDir =
      ((Project.conventional root).override invocation.overrides).viewsDir.join
        (.ofString "layouts") := by
  have viewsCanonical := Path.isCanonical_absolutize canonical.absolute views
  have below : ((root.absolutize views).join (.ofString "layouts")).IsCanonical :=
    viewsCanonical.join_segments (by decide)
  rw [Project.override_eq, Invocation.overrides, moved, unmoved]
  change root.absolutize (views.join (.ofString "layouts")) =
    (root.absolutize views).join (.ofString "layouts")
  rw [Path.absolutize_join, below.normal]

end AssetUsage
