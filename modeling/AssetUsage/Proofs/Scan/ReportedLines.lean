import AssetUsage.Proofs.Scan.Exactness

/-!
# Reported lines

Whether a line uses a target can depend on the rest of its file. A line that is read and uses the
target, or does not use it, whatever the rest is, is reported, or not reported, by every scan that
reads it.
-/

namespace AssetUsage.Scan

/-- The scan looks at the file, and its line with the number is `line`. -/
structure ReadsLine (tree : Tree) (finder : Finder) (options : ScanOptions) (file : Path)
    (number : Nat) (line : List Char) : Prop where
  candidate : file ∈ candidatesOf tree finder options
  /-- The target itself is not searched. -/
  notTarget : ¬ file.SamePath finder.target
  positive : 1 ≤ number
  there : ∃ content, tree.ReadsAs options.sizeLimit file content ∧
    (Text.lines content.text.content)[number - 1]? = some line

/-- The scan reports the line with the number of the file. -/
def Reports (tree : Tree) (finder : Finder) (options : ScanOptions) (file : Path)
    (number : Nat) : Prop :=
  ∃ usage ∈ usages tree finder options, usage.file = file ∧ usage.line = number

variable {tree : Tree} {finder : Finder} {options : ScanOptions} {file : Path} {number : Nat}
  {line : List Char}

/-- A line that is read is reported if it uses the target whatever else stands in the file. -/
theorem reports_of_usedBy (reads : ReadsLine tree finder options file number line)
    (used : ∀ content, finder.usedBy (finder.candidate file content) line = true) :
    Reports tree finder options file number := by
  obtain ⟨candidate, notTarget, positive, content, readsAs, there⟩ := reads
  exact exists_mem_usages_iff.2
    ⟨candidate, notTarget, positive, content, line, readsAs, there, used _⟩

/-- A line that is read is not reported if it does not use the target whatever else stands in the
file. -/
theorem not_reports_of_usedBy (reads : ReadsLine tree finder options file number line)
    (unused : ∀ content, finder.usedBy (finder.candidate file content) line = false) :
    ¬ Reports tree finder options file number := by
  intro reported
  obtain ⟨-, -, -, content, readsAs, there⟩ := reads
  obtain ⟨-, -, -, other, shown, readsOther, thereOther, used⟩ := exists_mem_usages_iff.1 reported
  obtain rfl := Tree.content_unique readsAs.found readsOther.found
  obtain rfl := Option.some.inj (there.symm.trans thereOther)
  rw [unused] at used
  contradiction

/-- The line of the file counts exactly under the condition: it uses the target whatever the rest of
the file is, and every scan that reads it reports it, exactly if the condition holds. -/
structure CountsExactlyIf (finder : Finder) (file : Path) (line : List Char)
    (condition : Prop) : Prop where
  used : ∀ content, finder.usedBy (finder.candidate file content) line = true ↔ condition
  reported : ∀ tree options number, ReadsLine tree finder options file number line →
    (Reports tree finder options file number ↔ condition)

/-- A line that uses the target exactly under a condition is reported exactly under it. -/
theorem countsExactlyIf_of_usedBy {condition : Prop}
    (used : ∀ content, finder.usedBy (finder.candidate file content) line = true ↔ condition) :
    CountsExactlyIf finder file line condition := by
  refine ⟨used, fun tree options number reads => ⟨fun reported => ?_, fun holds => ?_⟩⟩
  · by_contra fails
    have unused : ∀ content, finder.usedBy (finder.candidate file content) line = false :=
      fun content => Bool.eq_false_iff.2 fun uses => fails ((used content).1 uses)
    exact not_reports_of_usedBy reads unused reported
  · exact reports_of_usedBy reads fun content => (used content).2 holds

/-- Conditions that are equivalent are met by the same lines. -/
theorem CountsExactlyIf.congr {condition other : Prop}
    (counts : CountsExactlyIf finder file line condition) (same : condition ↔ other) :
    CountsExactlyIf finder file line other :=
  propext same ▸ counts

end AssetUsage.Scan
