import AssetUsage.Session

/-!
# What a step does to the finders

A session keeps its finders by name. A finder is replaced by the steps that set it up, it scans the
tree at the steps that read it unless it has scanned before, and every other step leaves it alone:
`finder?_step` says so for all steps at once.
-/

namespace AssetUsage

/-- A finder that has scanned does not scan again. -/
theorem KeptFinder.scan_scan (kept : KeptFinder) (tree other : Tree) :
    (kept.scan tree).scan other = kept.scan tree := by
  obtain ⟨finder, options, found⟩ := kept
  cases found <;> rfl

/-- Scanning leaves the finder itself. -/
theorem KeptFinder.finder_scan (kept : KeptFinder) (tree : Tree) :
    (kept.scan tree).finder = kept.finder := by
  obtain ⟨finder, options, found⟩ := kept
  cases found <;> rfl

namespace Session

namespace Step

/-- The tree once the step is done. -/
def changeTree (tree : Tree) : Step → Tree
  | .write path content => tree.write path content
  | .makeDirectory path => tree.makeDirectory path
  | .remove path => tree.remove path
  | _ => tree

/-- The finder with a name and its options once the step is done, given those before it. -/
def setUp (project : Project) (name : List Char) (current : Option (Finder × ScanOptions)) :
    Step → Option (Finder × ScanOptions)
  | .makeFinder made target options =>
    if made = name then
      match Finder.ofTarget? project target with
      | some finder => some (finder, options)
      | none => current
    else current
  | .rescan changed options =>
    if changed = name then current.map fun (finder, _) => (finder, options) else current
  | _ => current

/-- The step makes the finder with a name, or has it forget what it found. -/
def isReset (project : Project) (name : List Char) : Step → Bool
  | .makeFinder made target _ => made = name && (Finder.ofTarget? project target).isSome
  | .rescan changed _ => changed = name
  | _ => false

/-- The step asks for the usages of the finder with a name. -/
def isRead (name : List Char) : Step → Bool
  | .usages read | .display read => read = name
  | .render names _ => names.contains name
  | _ => false

/-- Only a step that resets a finder sets it up. -/
theorem setUp_of_not_isReset {project : Project} {name : List Char} {step : Step}
    (h : step.isReset project name = false) (current : Option (Finder × ScanOptions)) :
    step.setUp project name current = current := by
  cases step with
  | makeFinder made target options =>
    simp only [setUp]
    split
    · next same =>
      split
      · next finder covered => simp [isReset, same, covered] at h
      · rfl
    · rfl
  | rescan changed options =>
    have other : changed ≠ name := by simpa [isReset] using h
    exact if_neg other
  | _ => rfl

end Step

/-- Putting away other finders leaves the one with a name. -/
theorem lookup_filter_ne {name other : List Char} (differ : other ≠ name)
    (finders : List (List Char × KeptFinder)) :
    (finders.filter (·.1 != name)).lookup other = finders.lookup other := by
  induction finders with
  | nil => rfl
  | cons first rest ih =>
    obtain ⟨key, kept⟩ := first
    by_cases removed : key = name
    · have unlike : (other == key) = false := by simpa [removed] using differ
      rw [List.filter_cons_of_neg (by simp [removed]), ih, List.lookup_cons, unlike]
    · rw [List.filter_cons_of_pos (by simp [removed]), List.lookup_cons, List.lookup_cons, ih]

/-- A finder is found under the name that it was given, and the others stay. -/
theorem finder?_keep (session : Session) (name other : List Char) (kept : KeptFinder) :
    (session.keep name kept).finder? other =
      if other = name then some kept else session.finder? other := by
  by_cases same : other = name
  · simp [finder?, keep, same]
  · have unlike : (other == name) = false := by simpa using same
    simp only [finder?, keep, List.lookup_cons, unlike, if_neg same]
    exact lookup_filter_ne same session.finders

/-- Scanning touches the finder with the name alone. -/
theorem finder?_scan (session : Session) (name other : List Char) :
    (session.scan name).1.finder? other =
      if other = name then (session.finder? other).map (·.scan session.tree)
      else session.finder? other := by
  unfold scan
  split
  · next missing =>
    by_cases same : other = name
    · simp [same, missing]
    · rw [if_neg same]
  · next kept known =>
    rw [finder?_keep]
    by_cases same : other = name
    · simp [same, known]
    · rw [if_neg same, if_neg same]

/-- Scanning leaves the tree and the project. -/
theorem scan_frame (session : Session) (name : List Char) :
    (session.scan name).1.tree = session.tree ∧
      (session.scan name).1.project = session.project := by
  unfold scan
  split <;> exact ⟨rfl, rfl⟩

/-- Scanning changes neither the tree nor the project. -/
theorem scanAll_frame (session : Session) (names : List (List Char)) :
    (session.scanAll names).tree = session.tree ∧
      (session.scanAll names).project = session.project := by
  induction names generalizing session with
  | nil => exact ⟨rfl, rfl⟩
  | cons first others ih =>
    obtain ⟨sameTree, sameProject⟩ := ih (session.scan first).1
    obtain ⟨firstTree, firstProject⟩ := scan_frame session first
    exact ⟨sameTree.trans firstTree, sameProject.trans firstProject⟩

/-- Every finder with one of the names scans, and no other. -/
theorem finder?_scanAll (session : Session) (names : List (List Char)) (name : List Char) :
    (session.scanAll names).finder? name =
      if name ∈ names then (session.finder? name).map (·.scan session.tree)
      else session.finder? name := by
  induction names generalizing session with
  | nil => simp [scanAll]
  | cons first others ih =>
    have next : (session.scanAll (first :: others)) = (session.scan first).1.scanAll others := rfl
    rw [next, ih, finder?_scan, (scan_frame session first).1]
    by_cases here : name = first
    · have twice : ((session.finder? name).map (·.scan session.tree)).map
          (·.scan session.tree) = (session.finder? name).map (·.scan session.tree) := by
        rw [Option.map_map]
        exact Option.map_congr fun kept _ => kept.scan_scan session.tree session.tree
      rw [if_pos here, twice, ite_self, if_pos (by simp [here])]
    · simp [here]

/-- Making a finder keeps it under its name, unless no kind covers the target. -/
theorem step_makeFinder (session : Session) (name : List Char) (target : Path)
    (options : ScanOptions) :
    session.step (.makeFinder name target options) =
      match Finder.ofTarget? session.project target with
      | none => (session, .made none)
      | some finder => (session.keep name ⟨finder, options, none⟩, .made (some finder.kind)) := by
  rfl

/-- A rescan takes the options and forgets what was found before. -/
theorem step_rescan (session : Session) (name : List Char) (options : ScanOptions) :
    session.step (.rescan name options) =
      match session.finder? name with
      | none => (session, .done)
      | some kept => (session.keep name ⟨kept.finder, options, none⟩, .done) := by
  rfl

/-- A step changes the tree in its own way, and the project not at all. -/
theorem step_frame (session : Session) (step : Step) :
    (session.step step).1.tree = step.changeTree session.tree ∧
      (session.step step).1.project = session.project := by
  cases step with
  | makeFinder name target options =>
    rw [step_makeFinder]
    split <;> exact ⟨rfl, rfl⟩
  | rescan name options =>
    rw [step_rescan]
    split <;> exact ⟨rfl, rfl⟩
  | usages name => exact scan_frame session name
  | display name => exact scan_frame session name
  | render names style => exact scanAll_frame session names
  | _ => exact ⟨rfl, rfl⟩

/-- The finder with a name behind a step: new if the step resets it, scanned if the step reads it,
and else the one before the step. -/
theorem finder?_step (session : Session) (step : Step) (name : List Char) :
    (session.step step).1.finder? name =
      if step.isReset session.project name then
        (step.setUp session.project name
          ((session.finder? name).map fun kept => (kept.finder, kept.options))).map
          fun (finder, options) => ⟨finder, options, none⟩
      else if step.isRead name then (session.finder? name).map (·.scan session.tree)
      else session.finder? name := by
  cases step with
  | makeFinder made target options =>
    rw [step_makeFinder]
    cases covered : Finder.ofTarget? session.project target with
    | none => simp [Step.isReset, Step.isRead, covered]
    | some finder =>
      by_cases same : made = name
      · simp [Step.isReset, Step.setUp, finder?_keep, covered, same]
      · simp [Step.isReset, Step.isRead, finder?_keep, covered, same, Ne.symm same]
  | rescan changed options =>
    rw [step_rescan]
    by_cases same : changed = name
    · subst same
      cases known : session.finder? changed with
      | none => simp [Step.isReset, Step.setUp, known]
      | some kept => simp [Step.isReset, Step.setUp, finder?_keep]
    · cases known : session.finder? changed with
      | none => simp [Step.isReset, Step.isRead, same]
      | some kept => simp [Step.isReset, Step.isRead, finder?_keep, same, Ne.symm same]
  | usages read =>
    refine (finder?_scan session read name).trans ?_
    simp [Step.isReset, Step.isRead, eq_comm]
  | display read =>
    refine (finder?_scan session read name).trans ?_
    simp [Step.isReset, Step.isRead, eq_comm]
  | render names style =>
    refine (finder?_scanAll session names name).trans ?_
    simp [Step.isReset, Step.isRead]
  | _ => rfl

/-- Asking for usages gives those of the scan with the texts of their lines. -/
theorem answer_usages (session : Session) (name : List Char) :
    (session.step (.usages name)).2 =
      .usages (((session.scan name).1.foundBy name).map fun usage =>
        (usage, usage.lineText session.tree)) := by
  rw [← (scan_frame session name).1]
  rfl

/-- Displaying gives the usages of the scan as texts. -/
theorem answer_display (session : Session) (name : List Char) :
    (session.step (.display name)).2 =
      .texts (((session.scan name).1.foundBy name).map (·.shown session.tree)) := by
  rw [← (scan_frame session name).1]
  rfl

/-- Rendering gives the reports of the scanned finders in the style. -/
theorem answer_render (session : Session) (names : List (List Char)) (style : RenderStyle) :
    (session.step (.render names style)).2 =
      .text (Report.render session.tree session.project.root style
        (names.map (session.scanAll names).reportOf)) := by
  rw [← (scanAll_frame session names).1, ← (scanAll_frame session names).2]
  rfl

end Session

end AssetUsage
