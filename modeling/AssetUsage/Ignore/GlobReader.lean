import AssetUsage.Ignore.Glob

/-!
# Reading globs

A glob is read from left to right. A `**` counts as any number of names only as a whole name, and a
bracket without its partner stands for itself. Braces must be balanced, ranges must not run
backwards and a backslash must have something to escape.
-/

namespace AssetUsage.Ignore

/-- Why a text is no glob. -/
inductive GlobError where
  | backwardsRange (first last : Char)
  | unopenedGroup
  | unclosedGroup
  | danglingEscape
deriving DecidableEq, Repr

/-- The text of an error. -/
def GlobError.message : GlobError → List Char
  | .backwardsRange first last =>
    "invalid range; '".toList ++ first :: "' > '".toList ++ [last, '\'']
  | .unopenedGroup =>
    ("unopened alternate group; missing '\x7b' " ++
      "(maybe escape '\x7d' with '[\x7d]'?)").toList
  | .unclosedGroup =>
    ("unclosed alternate group; missing '\x7d' " ++
      "(maybe escape '\x7b' with '[\x7b]'?)").toList
  | .danglingEscape => "dangling '\\'".toList

/-- A set in brackets, read behind the opening bracket. -/
inductive SetReading where
  /-- A set, and the text behind its closing bracket. -/
  | closed (ranges : List (Char × Char)) (behind : List Char)
  | unclosed
  | backwards (first last : Char)

/-- The characters of a set, where `ranges` holds those read so far, the last first. A bracket at
the start stands for itself, and so does a hyphen at the start or the end. -/
def readRanges (ranges : List (Char × Char)) (inRange : Bool) : List Char → SetReading
  | [] => .unclosed
  | c :: rest =>
    match ranges with
    | [] => readRanges [(c, c)] false rest
    | (first, last) :: others =>
      if c = ']' then
        let ranges := if inRange then ('-', '-') :: ranges else ranges
        .closed ranges.reverse rest
      else if inRange then
        if c < first then .backwards first c else readRanges ((first, c) :: others) false rest
      else if c = '-' then readRanges ((first, last) :: others) true rest
      else readRanges ((c, c) :: ranges) false rest

/-- A set takes its closing bracket from the text. -/
theorem length_of_readRanges {ranges found : List (Char × Char)} {inRange : Bool}
    {text behind : List Char} (h : readRanges ranges inRange text = .closed found behind) :
    behind.length < text.length := by
  induction text generalizing ranges inRange with
  | nil => simp [readRanges] at h
  | cons c rest ih =>
    unfold readRanges at h
    split at h
    · exact Nat.lt_succ_of_lt (ih h)
    · split at h
      · cases h
        simp
      · split at h
        · split at h
          · simp at h
          · exact Nat.lt_succ_of_lt (ih h)
        · split at h <;> exact Nat.lt_succ_of_lt (ih h)

/-- An open group of alternatives. -/
structure GlobGroup where
  /-- The tokens in front of the group, the last first. -/
  before : List GlobToken
  /-- The alternatives that are complete, the last first. -/
  branches : List (List GlobToken)

/-- What has been read of a glob. -/
structure GlobState where
  /-- The open groups, the innermost first. -/
  groups : List GlobGroup
  /-- The tokens of the alternative that is being read, the last first. -/
  tokens : List GlobToken
  previous : Option Char
  /-- A bracket without a partner was met, so brackets stand for themselves. -/
  plainBrackets : Bool

namespace GlobState

/-- The state before the first character. -/
def start : GlobState := ⟨[], [], none, false⟩

/-- The state behind one more token, whose last character is given. -/
def push (state : GlobState) (token : GlobToken) (last : Char) : GlobState :=
  { state with tokens := token :: state.tokens, previous := some last }

/-- The state behind an opening brace. -/
def openGroup (state : GlobState) : GlobState :=
  { state with groups := ⟨state.tokens, []⟩ :: state.groups, tokens := [], previous := some '{' }

/-- The state behind a comma, which separates alternatives inside a group. -/
def comma (state : GlobState) : GlobState :=
  match state.groups with
  | [] => state.push (.literal ',') ','
  | group :: others =>
    let group := { group with branches := state.tokens.reverse :: group.branches }
    { state with groups := group :: others, tokens := [], previous := some ',' }

/-- The state behind a closing brace, unless no group is open. -/
def closeGroup (state : GlobState) : Option GlobState :=
  match state.groups with
  | [] => none
  | group :: others =>
    let branches := (state.tokens.reverse :: group.branches).reverse
    some { state with
      groups := others, tokens := .choice branches :: group.before, previous := some '}' }

/-- The state behind two stars that are not a whole name. -/
def twoStars (state : GlobState) : GlobState := (state.push .anyInName '*').push .anyInName '*'

/-- The state in which the last token gives way to one that crosses names, unless it is itself one
that does so at an end of the path. -/
def replaceLast (state : GlobState) (token : GlobToken) (last : Char) : GlobState :=
  match state.tokens with
  | .anyNamesFirst :: _ | .anyNamesLast :: _ | [] => { state with previous := some last }
  | _ :: others => { state with tokens := token :: others, previous := some last }

/-- The previous character lets a whole name begin behind at least one token. -/
def beginsName (state : GlobState) : Bool :=
  state.previous = some '/' ||
    !state.groups.isEmpty && (state.previous = some ',' || state.previous = some '{')

/-- The state behind two stars and the text that follows them, from which a separator is taken if
the stars are a whole name in front of it. -/
def doubleStar (state : GlobState) (text : List Char) : GlobState × List Char :=
  if state.tokens.isEmpty then
    match text with
    | [] => (state.push .anyNamesFirst '*', [])
    | '/' :: rest => (state.push .anyNamesFirst '/', rest)
    | _ => (state.twoStars, text)
  else if state.beginsName then
    match text with
    | [] => (state.replaceLast .anyNamesLast '*', [])
    | '/' :: rest => (state.replaceLast .anyNamesBetween '/', rest)
    | c :: _ =>
      if !state.groups.isEmpty && (c = ',' || c = '}') then
        (state.replaceLast .anyNamesLast '*', text)
      else (state.twoStars, text)
  else (state.twoStars, text)

/-- Reading two stars leaves no more text than there was behind them. -/
theorem length_doubleStar_le (state : GlobState) (text : List Char) :
    (state.doubleStar text).2.length ≤ text.length := by
  unfold doubleStar
  split
  · split <;> simp
  · split
    · split
      · simp
      · simp
      · split <;> simp
    · simp

end GlobState

/-- The set at the start of a text behind `[`, with whether it is negated. -/
def readSet (text : List Char) : Bool × SetReading :=
  match text with
  | '!' :: rest | '^' :: rest => (true, readRanges [] false rest)
  | _ => (false, readRanges [] false text)

/-- A set that is closed leaves less text than there was. -/
theorem length_of_readSet {negated : Bool} {found : List (Char × Char)} {text behind : List Char}
    (h : readSet text = (negated, .closed found behind)) : behind.length < text.length := by
  unfold readSet at h
  split at h <;> have shorter := length_of_readRanges (Prod.mk.inj h).2 <;> simp <;> omega

/-- The glob that the rest of a text completes. -/
def readGlobFrom (state : GlobState) (text : List Char) : Except GlobError (List GlobToken) :=
  match text with
  | [] => if state.groups.isEmpty then .ok state.tokens.reverse else .error .unclosedGroup
  | '?' :: rest => readGlobFrom (state.push .anyByte '?') rest
  | '*' :: '*' :: rest =>
    have := state.length_doubleStar_le rest
    readGlobFrom (state.doubleStar rest).1 (state.doubleStar rest).2
  | '*' :: rest => readGlobFrom (state.push .anyInName '*') rest
  | '{' :: rest => readGlobFrom state.openGroup rest
  | '}' :: rest =>
    match state.closeGroup with
    | some state => readGlobFrom state rest
    | none => .error .unopenedGroup
  | ',' :: rest => readGlobFrom state.comma rest
  | ['\\'] => .error .danglingEscape
  | '\\' :: c :: rest => readGlobFrom (state.push (.literal c) c) rest
  | c :: rest =>
    if c = '[' ∧ !state.plainBrackets then
      match found : readSet rest with
      | (_, .backwards first last) => .error (.backwardsRange first last)
      | (_, .unclosed) => readGlobFrom { state.push (.literal '[') '[' with plainBrackets := true } rest
      | (negated, .closed ranges behind) =>
        have := length_of_readSet found
        readGlobFrom (state.push (.oneOf negated ranges) ']') behind
    else readGlobFrom (state.push (.literal c) c) rest
termination_by text.length
decreasing_by all_goals (simp_all; try omega)

/-- The glob that a text describes. -/
def readGlob (text : List Char) : Except GlobError (List GlobToken) := readGlobFrom .start text

end AssetUsage.Ignore
