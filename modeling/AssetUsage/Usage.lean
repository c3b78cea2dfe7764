import AssetUsage.Path.Name
import AssetUsage.Text.Basic
import AssetUsage.Tree.Reading

/-!
# Usages

A usage is a line of a file that uses a target. It is identified by the file and the number of the
line alone; the text of the line is kept from the scan or read again whenever it is asked for.
Equality, order and the removal of repetitions all compare the components of the file and then the
number.
-/

namespace AssetUsage

/-- Where the text of a line comes from. -/
inductive LineText where
  /-- From the scan that found the line. -/
  | captured (text : List Char)
  /-- From the file, when it is asked for. -/
  | deferred
deriving DecidableEq, Repr

/-- A line of a file that uses a target. -/
structure Usage where
  file : Path
  /-- The number of the line, from 1 on. -/
  line : Nat
  text : LineText
deriving Repr

/-- A usage as it is written into output. -/
structure UsageRecord where
  /-- The target as shown. -/
  target : List Char
  /-- The file, relative to the root where possible. -/
  path : List Char
  line : Nat
  text : List Char
deriving DecidableEq, Repr

namespace Usage

/-- The number of the line in 32 bits, as output shows it: the lines behind the one with the greatest
such number are counted from zero on. -/
def number (usage : Usage) : UInt32 := UInt32.ofNat usage.line

/-- What identifies a usage. -/
def identity (usage : Usage) : List Path.Component × Nat := (usage.file.components, usage.line)

/-- Usages are equal when they are the same line of the same file. -/
instance : BEq Usage := ⟨fun left right => left.identity == right.identity⟩

/-- Usages are ordered by file and then by line. -/
instance : Ord Usage where
  compare left right := (compare left.file right.file).then (compare left.line right.line)

/-- The text of a line that can no longer be read. -/
def unavailable : List Char := "<line unavailable>".toList

/-- The text of the line, as far as it can be had from the tree. -/
def lineText (tree : Tree) (usage : Usage) : List Char :=
  match usage.text with
  | .captured text => text
  | .deferred => (tree.readLine? usage.file usage.line).getD unavailable

/-- The usage as a text: file, number and text of the line. -/
def shown (tree : Tree) (usage : Usage) : List Char :=
  usage.file.text ++ ':' :: Text.decimal usage.number.toNat ++ ':' :: usage.lineText tree

/-- The usage of a shown target as a record. -/
def record (tree : Tree) (root : Path) (target : List Char) (usage : Usage) : UsageRecord :=
  ⟨target, usage.file.shownFrom root, usage.number.toNat, usage.lineText tree⟩

/-- The usages in order; equal ones stay in the order in which they are given. -/
def sort (usages : List Usage) : List Usage :=
  usages.mergeSort fun left right => (compare left right).isLE

/-- The usages without repetitions. -/
def distinct (usages : List Usage) : List Usage := usages.eraseDups

end Usage

/-- Usages compare by their files and then by their lines. -/
theorem compare_usage (left right : Usage) :
    compare left right = (compare left.file right.file).then (compare left.line right.line) := rfl

/-- The usages of one target. -/
structure UsageReport where
  target : List Char
  /-- The usages in the order in which they were found. -/
  usages : List Usage
deriving Repr

/-- The report holds no usage. -/
def UsageReport.isEmpty (report : UsageReport) : Bool := report.usages.isEmpty

end AssetUsage
