import AssetUsage.Command.Options

/-!
# Reading a command line

Arguments are read from left to right: options up to the command, then options and targets behind
it. A setting takes its value from behind `=` or from the next argument that does not look like an
option; behind `--` everything is a target. The first fault that is met refuses the command line,
and a value is only looked at when the next option or the end is reached.
-/

namespace AssetUsage.Command

/-- Why a command line is not run. -/
inductive Refusal where
  | help
  | version
  /-- Nothing is given, so help is shown. -/
  | nothingGiven
  | invalidValue
  | unexpectedValue
  | unknownOption
  | unknownCommand
  | missingCommand
  | missingTarget
  /-- An option is repeated or does not go with another one. -/
  | conflict
deriving DecidableEq, Repr

/-- What is shown instead of running a command line. -/
def Refusal.message : Refusal → String
  | .help | .nothingGiven => "usage: [OPTIONS] (find | unused | kind) FILE..."
  | .version => "0.3.0"
  | .invalidValue => "a value is missing or empty"
  | .unexpectedValue => "a switch has no value"
  | .unknownOption => "an option is not known"
  | .unknownCommand => "a command is not known"
  | .missingCommand => "there is no command"
  | .missingTarget => "there is no target"
  | .conflict => "options are repeated or do not go together"

/-- The form of an argument. -/
inductive Shape where
  | escape
  /-- A name behind two hyphens, and what follows its first `=`. -/
  | long (name : List Char) (value : Option (List Char))
  | short (letters : List Char)
  | plain (text : List Char)
deriving DecidableEq, Repr

/-- The form that an argument has. -/
def Shape.of : List Char → Shape
  | ['-', '-'] => .escape
  | '-' :: '-' :: text =>
    match text.dropWhile (· != '=') with
    | [] => .long text none
    | _ :: value => .long (text.takeWhile (· != '=')) (some value)
  | '-' :: letter :: letters => .short (letter :: letters)
  | text => .plain text

/-- What has been read and is still to be looked at. -/
inductive Pending where
  | nothing
  | setting (name : Setting) (value : Option (List Char))
  | targets (texts : List (List Char))
deriving DecidableEq, Repr

/-- The reading of the arguments in front of a command or behind it. -/
structure Reading where
  given : Given
  pending : Pending
  escaped : Bool
deriving DecidableEq, Repr

namespace Reading

/-- The reading of no argument. -/
def start : Reading := ⟨⟨[], [], []⟩, .nothing, false⟩

/-- The next argument may be the value of a setting. -/
def isAwaiting (reading : Reading) : Bool :=
  match reading.pending with
  | .setting _ none => true
  | _ => false

/-- The reading with the pending values looked at: none may be missing, no path empty, and no
setting given twice. -/
def settle (reading : Reading) : Except Refusal Reading :=
  let given := reading.given
  match reading.pending with
  | .nothing => .ok reading
  | .setting _ none => .error .invalidValue
  | .setting name (some value) =>
    if (given.setting? name).isSome then .error .conflict
    else if name.isPath && value.isEmpty then .error .invalidValue
    else .ok { reading with
      given := { given with settings := (name, value) :: given.settings }, pending := .nothing }
  | .targets texts =>
    if texts.any List.isEmpty then .error .invalidValue
    else .ok { reading with
      given := { given with targets := given.targets ++ texts.map Path.mk }, pending := .nothing }

/-- The reading behind a switch. -/
def readSwitch (switch : Switch) (reading : Reading) : Except Refusal Reading := do
  let reading ← reading.settle
  match switch with
  | .help => .error .help
  | .version => .error .version
  | _ =>
    if reading.given.has switch then .error .conflict
    else
      let given := { reading.given with switches := switch :: reading.given.switches }
      .ok { reading with given := given }

/-- The reading behind a setting, with its value if that is attached. -/
def readSetting (name : Setting) (value : Option (List Char)) (reading : Reading) :
    Except Refusal Reading := do
  let reading ← reading.settle
  let reading := { reading with pending := .setting name value }
  if value.isSome then reading.settle else .ok reading

/-- The reading behind an option with a long name. -/
def readLong (inFront : Bool) (name : List Char) (value : Option (List Char))
    (reading : Reading) : Except Refusal Reading :=
  match Setting.ofWord? name with
  | some setting => reading.readSetting setting value
  | none =>
    match (Switch.known inFront).find? (·.word.toList == name) with
    | some switch => if value.isSome then .error .unexpectedValue else reading.readSwitch switch
    | none => .error .unknownOption

/-- The reading behind options with short names. -/
def readShort (inFront : Bool) (letters : List Char) (reading : Reading) :
    Except Refusal Reading :=
  letters.foldlM (fun reading letter =>
    match (Switch.known inFront).find? (·.letter? == some letter) with
    | some switch => readSwitch switch reading
    | none => .error .unknownOption) reading

/-- The reading behind a text that is no option: in front of the command there is no place for it,
behind the command it is a target. -/
def readTarget (inFront : Bool) (text : List Char) (reading : Reading) :
    Except Refusal Reading :=
  if inFront then
    .error (if reading.escaped && isWord text then .unknownOption else .unknownCommand)
  else
    match reading.pending with
    | .targets texts => .ok { reading with pending := .targets (texts ++ [text]) }
    | _ => reading.settle.map fun reading => { reading with pending := .targets [text] }

/-- The reading behind an argument that is no command. -/
def readArgument (inFront : Bool) (argument : List Char) (reading : Reading) :
    Except Refusal Reading :=
  if reading.escaped then reading.readTarget inFront argument
  else
    match Shape.of argument with
    | .escape => .ok { reading with escaped := true }
    | .long name value => reading.readLong inFront name value
    | .short letters => reading.readShort inFront letters
    | .plain text =>
      match reading.pending with
      | .setting name none => .ok { reading with pending := .setting name (some text) }
      | _ => reading.readTarget inFront text

/-- The reading of the arguments in front of the command, with the command and the arguments behind
it if there is one. -/
def readFront (reading : Reading) :
    List (List Char) → Except Refusal (Reading × Option (List Char × List (List Char)))
  | [] => .ok (reading, none)
  | argument :: others =>
    if !reading.escaped && !reading.isAwaiting && isWord argument then
      .ok (reading, some (argument, others))
    else do (← reading.readArgument true argument).readFront others

/-- The reading of the arguments behind the command. -/
def readBehind (arguments : List (List Char)) : Except Refusal Reading :=
  arguments.foldlM (fun reading argument => reading.readArgument false argument) start

/-- What is given once all arguments are read. A root that the environment names is looked at when
no other is given here. -/
def finish (environmentRoot : Option (List Char)) (reading : Reading) : Except Refusal Given := do
  let given := (← reading.settle).given
  if (given.setting? .root).isNone && environmentRoot == some [] then .error .invalidValue
  else .ok given

end Reading

/-- Refuses options that do not go together. -/
def checkConflicts (given : Given) : Except Refusal Given :=
  if given.has .quiet && given.has .verbose then .error .conflict else .ok given

/-- Why the words behind the word for help are not run: help is there for one command at most. -/
def helpOn : List (List Char) → Refusal
  | [] => .help
  | [word] => if isWord word then .help else .unknownCommand
  | _ => .unknownCommand

/-- Why a command line without a command is not run. -/
def withoutCommand (environmentRoot : Option (List Char)) (given : Given) : Refusal :=
  if given.isEmpty && environmentRoot.isNone then .nothingGiven else .missingCommand

/-- The invocation that a command line stands for, where the environment may name a root. -/
def readInvocation (environmentRoot : Option (List Char)) (arguments : List (List Char)) :
    Except Refusal Invocation := do
  let (front, rest) ← Reading.start.readFront arguments
  match rest with
  | none => .error (withoutCommand environmentRoot (← front.finish environmentRoot))
  | some (word, others) =>
    match ofWord? word with
    | none => .error (helpOn others)
    | some command =>
      let behind ← checkConflicts (← (← Reading.readBehind others).finish environmentRoot)
      if behind.targets.isEmpty then .error .missingTarget
      else
        let front ← checkConflicts (← front.finish environmentRoot)
        .ok (invocation command environmentRoot front behind)

end AssetUsage.Command
