import AssetUsage.Text.Utf8

/-!
# Lines

A text is cut at its line feeds. A carriage return before a line feed belongs to the line end, and
a line feed at the very end of the text starts no further line. A file that is read line by line
gives lines as long as they are UTF-8; the first one that is not ends the reading.
-/

namespace AssetUsage.Text

/-- A line without the carriage return that ended it. -/
def dropReturn (line : List Char) : List Char :=
  if line.getLast? = some '\r' then line.dropLast else line

/-- The lines made of the stretches between line feeds: the last stretch has no line end. -/
def linesOfStretches : List (List Char) → List (List Char)
  | [] => []
  | [last] => if last.isEmpty then [] else [last]
  | stretch :: others => dropReturn stretch :: linesOfStretches others

/-- The lines of a text, without their ends. -/
def lines (text : List Char) : List (List Char) := linesOfStretches (text.splitOn '\n')

/-- The first line ends at the first line feed. -/
theorem lines_append_lineFeed {line : List Char} (plain : '\n' ∉ line) (rest : List Char) :
    lines (line ++ '\n' :: rest) = dropReturn line :: lines rest := by
  have split : (line ++ '\n' :: rest).splitOn '\n' = line :: rest.splitOn '\n' := by
    rw [List.splitOn_append_cons_self, List.splitOn_eq_singleton plain, List.singleton_append]
  obtain ⟨first, others, more⟩ := List.exists_cons_of_ne_nil (List.splitOn_ne_nil '\n' rest)
  rw [lines, split, lines, more]
  rfl

/-- The lines that were read from a file. -/
structure SoundLines where
  lines : List (List Char)
  /-- A line that is not UTF-8 follows. -/
  broken : Bool
deriving DecidableEq, Repr

namespace SoundLines

/-- The lines at the start of a file that are UTF-8. -/
def read (bytes : List UInt8) : SoundLines :=
  let items := Utf8.read bytes
  let sound := items.takeWhile (· != .malformed)
  let text := sound.map Utf8.Item.shown
  if sound.length = items.length then ⟨Text.lines text, false⟩
  else ⟨Text.lines (text.reverse.dropWhile (· != '\n')).reverse, true⟩

end SoundLines

end AssetUsage.Text
