import AssetUsage.Command.Run

/-!
# The program

The program reads the snapshot of a file tree from its input, runs the command line on that tree and
prints what the run ends with: the output of a command, and the log and the failures beside it. The
environment names the current directory and may name the root of a project.

A snapshot writes a file tree down as text, one entry a line: `d` and the path of a directory, or
`f`, the bytes of a file as pairs of hexadecimal digits, and the path of the file. One blank stands
between the parts of a line, and the path comes last because it may hold blanks of its own.
-/

namespace AssetUsage.Snapshot

/-- The value of a hexadecimal digit in lower case. -/
def digitValue? (c : Char) : Option Nat :=
  if c.isDigit then some (c.toNat - '0'.toNat)
  else if 'a' ≤ c ∧ c ≤ 'f' then some (c.toNat - 'a'.toNat + 10)
  else none

/-- The bytes that pairs of hexadecimal digits stand for. -/
def readBytes? : List Char → Option (List UInt8)
  | [] => some []
  | [_] => none
  | high :: low :: rest => do
    let byte := (← digitValue? high) * 16 + (← digitValue? low)
    return UInt8.ofNat byte :: (← readBytes? rest)

/-- The tree with the entry that a line describes, whose path starts at `base` if it is relative. -/
def addLine? (base : Path) (tree : Tree) (line : List Char) : Option Tree :=
  match line with
  | 'd' :: ' ' :: path => some (tree.makeDirectory (base.join ⟨path⟩))
  | 'f' :: ' ' :: rest => do
    let (digits, path) ← Text.upTo? ' ' rest
    return tree.write (base.join ⟨path⟩) ⟨(← readBytes? digits).toArray⟩
  | _ => none

/-- The tree that a snapshot describes, in which the directory `base` is there in any case. -/
def read? (base : Path) (snapshot : List Char) : Option Tree :=
  (Text.lines snapshot).foldlM (addLine? base) (Tree.empty.makeDirectory base)

end AssetUsage.Snapshot

namespace AssetUsage.Program

/-- The lines that are left in a stream, behind the text that has been read. -/
partial def readRest (input : IO.FS.Stream) (text : String) : IO String := do
  let line ← input.getLine
  if line.isEmpty then return text else readRest input (text ++ line)

/-- The current directory. -/
def currentDir : IO Path := do
  return .ofString ((← IO.getEnv "PWD").getD "/")

/-- Prints how a run ends. -/
def print (outcome : Command.Outcome) : IO Unit := do
  let output ← IO.getStdout
  let errors ← IO.getStderr
  match outcome with
  | .refused refusal =>
    (if outcome.status = 0 then output else errors).putStrLn refusal.message
  | .failed failure => errors.putStrLn (String.ofList failure.shown)
  | .done _ text log =>
    for line in log do errors.putStrLn (String.ofList line)
    output.putStr (String.ofList text)

/-- Runs a command line on the tree whose snapshot is the input; the result is the exit status. -/
def run (arguments : List String) : IO UInt32 := do
  let directory ← currentDir
  match Snapshot.read? directory (← readRest (← IO.getStdin) "").toList with
  | none =>
    (← IO.getStderr).putStrLn "Error: the input is no snapshot of a file tree"
    return 2
  | some tree =>
    let outcome := Command.run
      { tree := tree.enter directory
        environmentRoot := (← IO.getEnv "ASSETREF_ROOT").map String.toList
        terminal := ← (← IO.getStdout).isTty }
      (arguments.map String.toList)
    print outcome
    return UInt32.ofNat outcome.status

end AssetUsage.Program

/-- The program as it is started. -/
def main (arguments : List String) : IO UInt32 := AssetUsage.Program.run arguments
