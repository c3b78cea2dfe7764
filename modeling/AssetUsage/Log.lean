import AssetUsage.Ignore.Problem
import AssetUsage.Kind
import AssetUsage.Text.Basic
import AssetUsage.Text.Lines
import AssetUsage.Tree.Reading

/-!
# Events of a run

What happens during a run is recorded as events. Each has a level, and a log shows the events down
to a given level, each as its level, a message and fields.
-/

namespace AssetUsage

/-- How much an event matters. -/
inductive LogLevel where
  | error
  | warn
  | info
  | debug
deriving DecidableEq, Repr

namespace LogLevel

/-- The name of a level in a log. -/
def word : LogLevel → String
  | .error => "ERROR"
  | .warn => "WARN"
  | .info => "INFO"
  | .debug => "DEBUG"

/-- The place of a level, the most important first. -/
def rank : LogLevel → Nat
  | .error => 0
  | .warn => 1
  | .info => 2
  | .debug => 3

end LogLevel

/-- Something that happened during a run. -/
inductive Event where
  | unsupportedTarget (target : List Char)
  | missingTarget (target : List Char)
  | searching (target : List Char) (kind : AssetKind)
  /-- Ignore files above the root of a scan are not of use as a whole. -/
  | unsound (problems : List Ignore.Problem)
  | scanning (kind : AssetKind) (target : Path) (candidates : Nat)
  | skipped (file : Path) (reason : SkipReason)
  | lossy (file : Path)
  | scanned (target : Path) (usages : Nat)
deriving DecidableEq, Repr

namespace Event

/-- The level of an event. -/
def level : Event → LogLevel
  | .unsupportedTarget _ | .missingTarget _ | .lossy _ => .warn
  | .scanned _ _ => .info
  | .searching _ _ | .unsound _ | .scanning _ _ _ | .skipped _ _ => .debug

/-- The message of an event. -/
def message : Event → String
  | .unsupportedTarget _ => "unsupported file type, skipping"
  | .missingTarget _ => "target does not exist, searching anyway"
  | .searching _ _ => "finding usages"
  | .unsound _ => "skipping unreadable entry"
  | .scanning _ _ _ => "scanning candidates"
  | .skipped _ _ => "skipping candidate"
  | .lossy _ => "file is not valid UTF-8, matched lossily"
  | .scanned _ _ => "scan complete"

/-- The fields of an event in order. -/
def fields : Event → List (String × List Char)
  | .unsupportedTarget target | .missingTarget target => [("target_file", target)]
  | .searching target kind => [("target_file", target), ("kind", kind.word.toList)]
  | .unsound problems => [("error", ['\n'].intercalate (problems.map (·.message)))]
  | .scanning kind target candidates =>
    [("kind", kind.word.toList), ("asset", target.text), ("candidates", Text.decimal candidates)]
  | .skipped file reason => [("file", file.text), ("reason", reason.message)]
  | .lossy file => [("file", file.text)]
  | .scanned target usages => [("asset", target.text), ("usages", Text.decimal usages)]

/-- The event as a text. -/
def shown (event : Event) : List Char :=
  event.level.word.toList ++ ' ' :: event.message.toList ++
    event.fields.flatMap fun (name, value) => ' ' :: name.toList ++ '=' :: value

end Event

/-- The lines of a log that shows events down to a level, without blanks around them. Every event
ends its last line, so one whose text ends a line of its own leaves an empty one behind. -/
def logLines (level : LogLevel) (events : List Event) : List (List Char) :=
  (events.filter fun event => event.level.rank ≤ level.rank).flatMap fun event =>
    (Text.lines (event.shown ++ ['\n'])).map Text.trim

end AssetUsage
