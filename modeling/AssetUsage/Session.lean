import AssetUsage.Search

/-!
# Sessions

In a session files come and go while finders are kept under names. A finder scans the tree when its
usages are first asked for and keeps what it found until it is made again or told to scan with other
options; only the texts that it did not keep are read anew each time.
-/

namespace AssetUsage

/-- A finder that remembers its usages. -/
structure KeptFinder where
  finder : Finder
  options : ScanOptions
  /-- What it found, once it has scanned. -/
  found : Option (List Usage)

namespace KeptFinder

/-- The finder once it has scanned: nothing is scanned twice. -/
def scan (tree : Tree) (kept : KeptFinder) : KeptFinder :=
  match kept.found with
  | some _ => kept
  | none => { kept with found := some (Scan.usages tree kept.finder kept.options) }

/-- What the finder found. -/
def usages (kept : KeptFinder) : List Usage := kept.found.getD []

end KeptFinder

/-- A file tree with the finders of a project. -/
structure Session where
  tree : Tree
  project : Project
  finders : List (List Char × KeptFinder)

namespace Session

/-- A step of a session. -/
inductive Step where
  | write (path : Path) (content : Content)
  | makeDirectory (path : Path)
  | remove (path : Path)
  /-- A finder is made for a target, in the place of one with the same name. -/
  | makeFinder (name : List Char) (target : Path) (options : ScanOptions)
  /-- A finder forgets what it found and gets other options. -/
  | rescan (name : List Char) (options : ScanOptions)
  | usages (name : List Char)
  | display (name : List Char)
  | render (names : List (List Char)) (style : RenderStyle)
  | candidates (extensions : List (List Char)) (respectIgnore : Bool)
  | readLine (path : Path) (number : Nat)

/-- The answer to a step. -/
inductive Answer where
  | done
  /-- The kind of the finder that was made, if one was. -/
  | made (kind : Option AssetKind)
  | usages (usages : List (Usage × List Char))
  | texts (texts : List (List Char))
  | text (text : List Char)
  | paths (paths : List Path)
  /-- A line, if it is there. -/
  | line (line : Option (List Char))
deriving Repr

/-- The finder with a name. -/
def finder? (session : Session) (name : List Char) : Option KeptFinder :=
  session.finders.lookup name

/-- The session with a finder under a name. -/
def keep (session : Session) (name : List Char) (kept : KeptFinder) : Session :=
  { session with finders := (name, kept) :: session.finders.filter (·.1 != name) }

/-- The session once the finder with a name has scanned, and that finder. -/
def scan (session : Session) (name : List Char) : Session × Option KeptFinder :=
  match session.finder? name with
  | none => (session, none)
  | some kept =>
    let kept := kept.scan session.tree
    (session.keep name kept, some kept)

/-- The session once all finders with the names have scanned. -/
def scanAll (session : Session) (names : List (List Char)) : Session :=
  names.foldl (fun session name => (session.scan name).1) session

/-- The usages that a finder has found. -/
def foundBy (session : Session) (name : List Char) : List Usage :=
  ((session.finder? name).map (·.usages)).getD []

/-- The report of the finder with a name. -/
def reportOf (session : Session) (name : List Char) : UsageReport :=
  let target := ((session.finder? name).map (·.finder.target)).getD ⟨[]⟩
  ⟨session.project.displayed target, session.foundBy name⟩

/-- One step: the session behind it and the answer. -/
def step (session : Session) : Step → Session × Answer
  | .write path content => ({ session with tree := session.tree.write path content }, .done)
  | .makeDirectory path => ({ session with tree := session.tree.makeDirectory path }, .done)
  | .remove path => ({ session with tree := session.tree.remove path }, .done)
  | .makeFinder name target options =>
    match Finder.ofTarget? session.project target with
    | none => (session, .made none)
    | some finder => (session.keep name ⟨finder, options, none⟩, .made (some finder.kind))
  | .rescan name options =>
    match session.finder? name with
    | none => (session, .done)
    | some kept => (session.keep name ⟨kept.finder, options, none⟩, .done)
  | .usages name =>
    let session := (session.scan name).1
    let texts := (session.foundBy name).map fun usage => (usage, usage.lineText session.tree)
    (session, .usages texts)
  | .display name =>
    let session := (session.scan name).1
    (session, .texts ((session.foundBy name).map (·.shown session.tree)))
  | .render names style =>
    let session := session.scanAll names
    let reports := names.map session.reportOf
    (session, .text (Report.render session.tree session.project.root style reports))
  | .candidates extensions respectIgnore =>
    let found := Scan.candidates session.tree session.project.root extensions respectIgnore
    (session, .paths found)
  | .readLine path number => (session, .line (session.tree.readLine? path number))

/-- The answers to steps one after the other. -/
def run (session : Session) : List Step → List Answer
  | [] => []
  | first :: others =>
    let (session, answer) := session.step first
    answer :: session.run others

end Session

end AssetUsage
