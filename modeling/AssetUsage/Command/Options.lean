import AssetUsage.Path.Basic

/-!
# Commands and options

A command line names a command and its targets. Options may stand before and behind the command;
one behind it counts more than one before it. Settings have a value, switches have none.
-/

namespace AssetUsage

/-- What a command line asks for. -/
inductive Command where
  | find
  | unused
  | kind
deriving DecidableEq, Repr

namespace Command

/-- The word of a command. -/
def word : Command → String
  | .find => "find"
  | .unused => "unused"
  | .kind => "kind"

/-- The command with a word. -/
def ofWord? (word : List Char) : Option Command :=
  [find, unused, kind].find? (·.word.toList == word)

/-- The word that asks for help. -/
def helpWord : List Char := "help".toList

/-- The word is a command or asks for help. -/
def isWord (word : List Char) : Bool := word == helpWord || (ofWord? word).isSome

/-- An option with a value. -/
inductive Setting where
  | root
  | format
  | viewsDir
  | layoutsDir
  | controllersDir
  | publicDir
deriving DecidableEq, Repr

/-- The name of a setting behind two hyphens. -/
def Setting.word : Setting → String
  | .root => "root"
  | .format => "format"
  | .viewsDir => "views-dir"
  | .layoutsDir => "layouts-dir"
  | .controllersDir => "controllers-dir"
  | .publicDir => "public-dir"

/-- The setting with a name. -/
def Setting.ofWord? (word : List Char) : Option Setting :=
  [root, format, viewsDir, layoutsDir, controllersDir, publicDir].find? (·.word.toList == word)

/-- The value of the setting is a path, which must not be empty. -/
def Setting.isPath (setting : Setting) : Bool := setting != .format

/-- An option without a value. -/
inductive Switch where
  | noColor
  | noIgnore
  | quiet
  | verbose
  | help
  | version
deriving DecidableEq, Repr

/-- The name of a switch behind two hyphens. -/
def Switch.word : Switch → String
  | .noColor => "no-color"
  | .noIgnore => "no-ignore"
  | .quiet => "quiet"
  | .verbose => "verbose"
  | .help => "help"
  | .version => "version"

/-- The letter of a switch behind one hyphen. -/
def Switch.letter? : Switch → Option Char
  | .quiet => some 'q'
  | .verbose => some 'v'
  | .help => some 'h'
  | .version => some 'V'
  | .noColor | .noIgnore => none

/-- The switches that may stand in front of a command, or behind it: the version is asked for in
front only. -/
def Switch.known (inFront : Bool) : List Switch :=
  [noColor, noIgnore, quiet, verbose, help] ++ if inFront then [version] else []

/-- The options and targets in front of a command or behind it. -/
structure Given where
  settings : List (Setting × List Char)
  switches : List Switch
  targets : List Path
deriving DecidableEq, Repr

namespace Given

/-- The value of a setting. -/
def setting? (given : Given) (setting : Setting) : Option (List Char) :=
  given.settings.lookup setting

/-- The switch is set. -/
def has (given : Given) (switch : Switch) : Bool := given.switches.contains switch

/-- Nothing is given. -/
def isEmpty (given : Given) : Bool :=
  given.settings.isEmpty && given.switches.isEmpty && given.targets.isEmpty

end Given

/-- A command line that can be run. -/
structure Invocation where
  command : Command
  targets : List Path
  root : Path
  /-- The name of the output format. -/
  format : List Char
  viewsDir : Option Path
  layoutsDir : Option Path
  controllersDir : Option Path
  publicDir : Option Path
  noColor : Bool
  noIgnore : Bool
  quiet : Bool
  verbose : Bool
deriving DecidableEq, Repr

/-- The invocation made of what stands in front of a command and behind it, where the environment
may name a root. -/
def invocation (command : Command) (environmentRoot : Option (List Char))
    (front behind : Given) : Invocation :=
  let setting (name : Setting) := (behind.setting? name).or (front.setting? name)
  let switch (name : Switch) := front.has name || behind.has name
  { command
    targets := behind.targets
    root := ⟨((setting .root).or environmentRoot).getD ".".toList⟩
    format := (setting .format).getD "lines".toList
    viewsDir := (setting .viewsDir).map Path.mk
    layoutsDir := (setting .layoutsDir).map Path.mk
    controllersDir := (setting .controllersDir).map Path.mk
    publicDir := (setting .publicDir).map Path.mk
    noColor := switch .noColor
    noIgnore := switch .noIgnore
    quiet := switch .quiet
    verbose := switch .verbose }

end Command

end AssetUsage
