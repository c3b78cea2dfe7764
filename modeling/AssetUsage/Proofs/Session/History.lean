import AssetUsage.Proofs.Scan.Exactness
import AssetUsage.Proofs.Session.Finders
import Mathlib.Data.List.DropRight

/-!
# What a session answers

What a read of a finder gives is told by the steps before it. The last reset of the finder, that is
the last step that made it or changed its options, is the latest one that matters for the target and
the options; the first read since then is the moment from which its usages are; and the steps up to
now decide about the texts that were not kept. One invariant goes through the steps, `Knows`: it
says what every finder remembers. A step keeps up with it (`Knows.behindStep`), hence a whole run
(`knows_sessionAfter`).
-/

namespace AssetUsage.Session

/-- The tree once some steps are done. -/
def treeAfter (tree : Tree) (steps : List Step) : Tree := steps.foldl Step.changeTree tree

/-- The finder with a name and its options once some steps are done. -/
def setUpAfter (project : Project) (name : List Char) (steps : List Step) :
    Option (Finder × ScanOptions) :=
  steps.foldl (Step.setUp project name) none

/-- The steps up to the last one that resets the finder. -/
def upToReset (project : Project) (name : List Char) (steps : List Step) : List Step :=
  steps.rdropWhile fun step => !step.isReset project name

/-- The steps since the last one that resets the finder. -/
def sinceReset (project : Project) (name : List Char) (steps : List Step) : List Step :=
  steps.rtakeWhile fun step => !step.isReset project name

/-- The finder has been read since it was last reset. -/
def hasRead (project : Project) (name : List Char) (steps : List Step) : Bool :=
  (sinceReset project name steps).any (·.isRead name)

/-- The tree at the first read of the finder since it was last reset, or the present one. -/
def scannedTree (tree : Tree) (project : Project) (name : List Char) (steps : List Step) : Tree :=
  treeAfter tree (upToReset project name steps ++
    (sinceReset project name steps).takeWhile (!·.isRead name))

/-- The usages that a read of the finder gives. -/
def usagesInHistory (tree : Tree) (project : Project) (name : List Char) (steps : List Step) :
    List Usage :=
  match setUpAfter project name steps with
  | none => []
  | some (finder, options) => Scan.usages (scannedTree tree project name steps) finder options

variable {tree : Tree} {project : Project} {name : List Char} {steps : List Step} {step : Step}

/-- The last step changes the tree that the others leave. -/
theorem treeAfter_concat :
    treeAfter tree (steps ++ [step]) = step.changeTree (treeAfter tree steps) :=
  List.foldl_concat ..

/-- The last step sets up the finder that the others leave. -/
theorem setUpAfter_concat : setUpAfter project name (steps ++ [step]) =
    step.setUp project name (setUpAfter project name steps) :=
  List.foldl_concat ..

/-- The steps are those up to the last reset and those since. -/
theorem upToReset_append_sinceReset :
    upToReset project name steps ++ sinceReset project name steps = steps :=
  List.rdropWhile_append_rtakeWhile ..

/-- No step comes since a reset at the end. -/
theorem sinceReset_concat_of_isReset (reset : step.isReset project name = true) :
    sinceReset project name (steps ++ [step]) = [] :=
  List.rtakeWhile_concat_neg _ _ _ (by simp [reset])

/-- Any other step at the end comes since the last reset. -/
theorem sinceReset_concat (other : step.isReset project name = false) :
    sinceReset project name (steps ++ [step]) = sinceReset project name steps ++ [step] :=
  List.rtakeWhile_concat_pos _ _ _ (by simp [other])

/-- Any other step at the end leaves the last reset where it was. -/
theorem upToReset_concat (other : step.isReset project name = false) :
    upToReset project name (steps ++ [step]) = upToReset project name steps :=
  List.rdropWhile_concat_pos _ _ _ (by simp [other])

/-- As long as the finder has not been read, it would scan the present tree. -/
theorem scannedTree_of_unread (unread : hasRead project name steps = false) :
    scannedTree tree project name steps = treeAfter tree steps := by
  have all : (sinceReset project name steps).takeWhile (!·.isRead name) =
      sinceReset project name steps := by
    refine List.takeWhile_eq_self_iff.2 fun step mem => ?_
    simpa using List.any_eq_false.1 unread step mem
  rw [scannedTree, all, upToReset_append_sinceReset]

/-- From the first read on, the tree that the finder has scanned is settled until it is reset. -/
theorem scannedTree_concat (other : step.isReset project name = false)
    (settled : (hasRead project name steps || step.isRead name) = true) :
    scannedTree tree project name (steps ++ [step]) = scannedTree tree project name steps := by
  have same : (sinceReset project name steps ++ [step]).takeWhile (!·.isRead name) =
      (sinceReset project name steps).takeWhile (!·.isRead name) := by
    rw [List.takeWhile_append]
    split
    · next whole =>
      have all := (List.takeWhile_prefix fun step : Step => !step.isRead name).eq_of_length whole
      have unread : hasRead project name steps = false :=
        List.any_eq_false.2 fun earlier mem => by
          simpa using List.takeWhile_eq_self_iff.1 all earlier mem
      have read : step.isRead name = true := by simpa [unread] using settled
      rw [all, List.takeWhile_cons_of_neg (by simp [read]), List.append_nil]
    · rfl
  rw [scannedTree, scannedTree, upToReset_concat other, sinceReset_concat other, same]

/-- The finder with a name as a session keeps it after some steps. -/
def remembered (tree : Tree) (project : Project) (name : List Char) (steps : List Step) :
    Option KeptFinder :=
  (setUpAfter project name steps).map fun (finder, options) =>
    ⟨finder, options, if hasRead project name steps then
      some (Scan.usages (scannedTree tree project name steps) finder options) else none⟩

/-- The session has gone through the steps from a tree, without finders at first. -/
structure Knows (tree : Tree) (project : Project) (steps : List Step) (session : Session) :
    Prop where
  /-- The tree is the one that the steps leave. -/
  sameTree : session.tree = treeAfter tree steps
  /-- The project is the same. -/
  sameProject : session.project = project
  /-- Every finder remembers what it found at its first read since it was last reset. -/
  finders : ∀ name, session.finder? name = remembered tree project name steps

/-- A reset finder remembers nothing. -/
theorem remembered_of_isReset (reset : step.isReset project name = true) :
    remembered tree project name (steps ++ [step]) =
      (step.setUp project name (setUpAfter project name steps)).map
        fun (finder, options) => ⟨finder, options, none⟩ := by
  have unread : hasRead project name (steps ++ [step]) = false := by
    rw [hasRead, sinceReset_concat_of_isReset reset, List.any_nil]
  simp only [remembered, setUpAfter_concat, unread, Bool.false_eq_true, if_false]

/-- A finder that is read remembers what it finds in the present tree, unless it has been read. -/
theorem remembered_of_isRead (other : step.isReset project name = false)
    (read : step.isRead name = true) :
    remembered tree project name (steps ++ [step]) =
      (remembered tree project name steps).map (·.scan (treeAfter tree steps)) := by
  have now : hasRead project name (steps ++ [step]) = true := by
    rw [hasRead, sinceReset_concat other, List.any_append]
    simp [read]
  have settled : scannedTree tree project name (steps ++ [step]) =
      scannedTree tree project name steps := scannedTree_concat other (by simp [read])
  simp only [remembered, setUpAfter_concat, Step.setUp_of_not_isReset other, now, settled,
    Option.map_map]
  refine Option.map_congr fun (finder, options) _ => ?_
  cases before : hasRead project name steps with
  | true => simp [KeptFinder.scan]
  | false => simp [KeptFinder.scan, scannedTree_of_unread before]

/-- A step that neither resets nor reads a finder leaves what it remembers. -/
theorem remembered_of_other (other : step.isReset project name = false)
    (unread : step.isRead name = false) :
    remembered tree project name (steps ++ [step]) = remembered tree project name steps := by
  have same : hasRead project name (steps ++ [step]) = hasRead project name steps := by
    rw [hasRead, sinceReset_concat other, List.any_append, hasRead]
    simp [unread]
  simp only [remembered, setUpAfter_concat, Step.setUp_of_not_isReset other, same]
  cases before : hasRead project name steps with
  | true => rw [scannedTree_concat other (by simp [before])]
  | false => rfl

/-- One step keeps up with the history. -/
theorem Knows.behindStep {session : Session} (known : Knows tree project steps session)
    (step : Step) :
    Knows tree project (steps ++ [step]) (session.step step).1 where
  sameTree := by rw [(step_frame session step).1, known.sameTree, treeAfter_concat]
  sameProject := by rw [(step_frame session step).2, known.sameProject]
  finders := by
    intro name
    rw [finder?_step, known.sameProject, known.sameTree, known.finders]
    by_cases reset : step.isReset project name = true
    · have setUp : (remembered tree project name steps).map
          (fun kept => (kept.finder, kept.options)) = setUpAfter project name steps := by
        rw [remembered, Option.map_map]
        exact Option.map_id'
      rw [if_pos reset, remembered_of_isReset reset, setUp]
    · rw [if_neg reset]
      have other := Bool.eq_false_iff.2 reset
      by_cases read : step.isRead name = true
      · rw [if_pos read, remembered_of_isRead other read]
      · rw [if_neg read, remembered_of_other other (Bool.eq_false_iff.2 read)]

/-- The session once some steps are done. -/
def sessionAfter (session : Session) (steps : List Step) : Session :=
  steps.foldl (fun session step => (session.step step).1) session

/-- A run keeps up with its history. -/
theorem knows_sessionAfter (tree : Tree) (project : Project) (steps : List Step) :
    Knows tree project steps (sessionAfter ⟨tree, project, []⟩ steps) := by
  induction steps using List.reverseRecOn with
  | nil => exact ⟨rfl, rfl, fun _ => rfl⟩
  | append_singleton steps step ih =>
    rw [sessionAfter, List.foldl_concat]
    exact ih.behindStep step

/-- The answer at a place of a run is that of the session behind the steps before it. -/
theorem getElem?_run (session : Session) (past future : List Step) (step : Step) :
    (session.run (past ++ step :: future))[past.length]? =
      some ((sessionAfter session past).step step).2 := by
  induction past generalizing session with
  | nil => rfl
  | cons first others ih => exact ih (session.step first).1

/-- Once a finder has scanned, it has found what the history tells. -/
theorem foundBy_of_scanned {session scanned : Session} (known : Knows tree project steps session)
    (scan : scanned.finder? name = (session.finder? name).map (·.scan session.tree)) :
    scanned.foundBy name = usagesInHistory tree project name steps := by
  rw [foundBy, scan, known.finders, known.sameTree, usagesInHistory, remembered]
  cases setUpAfter project name steps with
  | none => rfl
  | some current =>
    cases before : hasRead project name steps with
    | true => simp [KeptFinder.scan, KeptFinder.usages]
    | false => simp [KeptFinder.scan, KeptFinder.usages, scannedTree_of_unread before]

/-- The report that a read of the finder gives. -/
def reportInHistory (tree : Tree) (project : Project) (steps : List Step) (name : List Char) :
    UsageReport :=
  let target := ((setUpAfter project name steps).map (·.1.target)).getD ⟨[]⟩
  ⟨project.displayed target, usagesInHistory tree project name steps⟩

/-- Once a finder has scanned, its report is what the history tells. -/
theorem reportOf_of_scanned {session scanned : Session} (known : Knows tree project steps session)
    (same : scanned.project = project)
    (scan : scanned.finder? name = (session.finder? name).map (·.scan session.tree)) :
    scanned.reportOf name = reportInHistory tree project steps name := by
  have target : (scanned.finder? name).map (·.finder.target) =
      (setUpAfter project name steps).map (·.1.target) := by
    rw [scan, known.finders, remembered, Option.map_map, Option.map_map]
    exact Option.map_congr fun current _ => congrArg Finder.target (KeptFinder.finder_scan ..)
  rw [reportOf, reportInHistory, target, same, foundBy_of_scanned known scan]

/-- A kept text is the line of the tree that was scanned, and any other is read from the present
tree. -/
theorem lineText_of_mem_usagesInHistory {now : Tree} {finder : Finder} {options : ScanOptions}
    {usage : Usage} (current : setUpAfter project name steps = some (finder, options))
    (mem : usage ∈ usagesInHistory tree project name steps) :
    if options.captureText then
      ∃ content,
        (scannedTree tree project name steps).ReadsAs options.sizeLimit usage.file content ∧
        (Text.lines content.text.content)[usage.line - 1]? = some (usage.lineText now)
    else usage.lineText now = (now.readLine? usage.file usage.line).getD Usage.unavailable := by
  rw [usagesInHistory, current] at mem
  obtain ⟨file, -, mem⟩ := List.mem_flatMap.1 mem
  obtain ⟨-, content, line, number, reads, -, there, -, rfl⟩ := Scan.mem_usagesOfFile.1 mem
  split
  · next kept =>
    refine ⟨content, reads, ?_⟩
    simp only [Scan.usageAt, kept, if_true, Usage.lineText]
    exact there
  · next left =>
    simp only [Scan.usageAt, if_neg left, Usage.lineText]

/-- Every read of a finder gives the usages of its present target under its present options in the
tree at its first read since it was last reset, whatever else was done in between; a kept text is a
line of that tree, and any other text is read from the tree as it is now. -/
theorem answers_of_reads (tree : Tree) (project : Project) (past future : List Step) :
    let answers step := (run ⟨tree, project, []⟩ (past ++ step :: future))[past.length]?
    let now := treeAfter tree past
    let found name := usagesInHistory tree project name past
    (∀ name, answers (.usages name) =
      some (.usages ((found name).map fun usage => (usage, usage.lineText now)))) ∧
    (∀ name, answers (.display name) = some (.texts ((found name).map (·.shown now)))) ∧
    (∀ names style, answers (.render names style) =
      some (.text (Report.render now project.root style
        (names.map (reportInHistory tree project past))))) ∧
    ∀ name finder options, setUpAfter project name past = some (finder, options) →
      found name = Scan.usages (scannedTree tree project name past) finder options ∧
      ∀ usage ∈ found name,
        if options.captureText then
          ∃ content,
            (scannedTree tree project name past).ReadsAs options.sizeLimit usage.file content ∧
            (Text.lines content.text.content)[usage.line - 1]? = some (usage.lineText now)
        else usage.lineText now = (now.readLine? usage.file usage.line).getD Usage.unavailable := by
  intro answers now found
  have known := knows_sessionAfter tree project past
  have scanned : ∀ name, ((sessionAfter ⟨tree, project, []⟩ past).scan name).1.foundBy name =
      found name := by
    intro name
    refine foundBy_of_scanned known ?_
    rw [finder?_scan, if_pos rfl]
  refine ⟨fun name => ?_, fun name => ?_, fun names style => ?_, ?_⟩
  · simp only [answers, getElem?_run, answer_usages, scanned, known.sameTree, now]
  · simp only [answers, getElem?_run, answer_display, scanned, known.sameTree, now]
  · have reports : names.map ((sessionAfter ⟨tree, project, []⟩ past).scanAll names).reportOf =
        names.map (reportInHistory tree project past) := by
      refine List.map_congr_left fun name mem => ?_
      refine reportOf_of_scanned known ?_ ?_
      · rw [(scanAll_frame _ names).2, known.sameProject]
      · rw [finder?_scanAll, if_pos mem]
    simp only [answers, getElem?_run, answer_render, reports, known.sameTree, known.sameProject,
      now]
  · intro name finder options current
    refine ⟨?_, fun usage mem => lineText_of_mem_usagesInHistory current mem⟩
    simp only [found, usagesInHistory, current]

end AssetUsage.Session
