import AssetUsage.Tree.Reading

/-!
# Files that are read as text

A file is read as text under a limit on its size when it is there, is no larger than the limit and
does not look binary. These three conditions decide every reading: the text of the whole file
(`readText_eq_ok_iff`) and a single line, which is read under the default limit
(`readLine?_of_readsAs`).
-/

namespace AssetUsage.Tree

/-- The path leads to a file with the content, which is read as text under the limit. -/
structure ReadsAs (tree : Tree) (sizeLimit : Nat) (file : Path) (content : Content) : Prop where
  /-- The path leads to a file with the content. -/
  found : tree.find file = .ok (.file content)
  /-- The file is not larger than the limit. -/
  small : content.size ≤ sizeLimit
  /-- The file does not look binary. -/
  textual : content.isBinary = false

/-- A path leads to one file at most. -/
theorem content_unique {tree : Tree} {file : Path} {content other : Content}
    (first : tree.find file = .ok (.file content)) (second : tree.find file = .ok (.file other)) :
    content = other := by
  have same := first.symm.trans second
  simpa using same

/-- A text is read exactly from a file that is read as text. -/
theorem readText_eq_ok_iff {tree : Tree} {file : Path} {sizeLimit : Nat} {text : FileText} :
    tree.readText file sizeLimit = .ok text ↔
      ∃ content, tree.ReadsAs sizeLimit file content ∧ content.text = text := by
  constructor
  · intro read
    unfold readText at read
    split at read
    · contradiction
    · contradiction
    · next content found =>
      unfold Content.read at read
      split at read
      · contradiction
      · next small =>
        split at read
        · contradiction
        · next textual =>
          refine ⟨content, ⟨found, by omega, by simpa using textual⟩, ?_⟩
          exact Except.ok.inj read
  · rintro ⟨content, reads, rfl⟩
    have small := reads.small
    simp [readText, reads.found, Content.read, reads.textual, Nat.not_lt.2 small]

/-- A line of a file that is read as text under some limit is there to be read again as long as the
file is not larger than the default limit. -/
theorem readLine?_of_readsAs {tree : Tree} {file : Path} {sizeLimit : Nat} {content : Content}
    (reads : tree.ReadsAs sizeLimit file content) (index : Nat) :
    tree.readLine? file (index + 1) =
      if content.size ≤ defaultSizeLimit then (Text.lines content.text.content)[index]?
      else none := by
  by_cases small : content.size ≤ defaultSizeLimit
  · have again : tree.readText file defaultSizeLimit = .ok content.text :=
      readText_eq_ok_iff.2 ⟨content, ⟨reads.found, small, reads.textual⟩, rfl⟩
    simp [readLine?, again, small]
  · have large : defaultSizeLimit < content.size := Nat.not_le.1 small
    simp [readLine?, readText, reads.found, Content.read, large, small]

end AssetUsage.Tree
