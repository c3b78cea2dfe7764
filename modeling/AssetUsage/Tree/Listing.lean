import AssetUsage.Path.Basic

/-!
# Directory listings

A listing is what a directory holds: files with their bytes and directories with listings of their
own, each under its name. Listings are kept in order of their names at every level, so that walking
one needs no sorting, and writing keeps a listing well formed (`wellFormed_write`).
-/

namespace AssetUsage

/-- The bytes of a file. -/
abbrev Content := ByteArray

/-- The entries of a directory, one after the other. -/
inductive Listing where
  | nil
  /-- A file in front of the other entries. -/
  | file (name : Segment) (content : Content) (rest : Listing)
  /-- A directory in front of the other entries. -/
  | directory (name : Segment) (inner : Listing) (rest : Listing)

/-- What a name stands for in a directory. -/
inductive Entry where
  | file (content : Content)
  | directory (inner : Listing)

namespace Listing

/-- The listing with an entry of a given name in front. -/
def cons (name : Segment) : Entry → Listing → Listing
  | .file content, rest => .file name content rest
  | .directory inner, rest => .directory name inner rest

/-- The names of the entries. -/
def names : Listing → List Segment
  | .nil => []
  | .file name _ rest | .directory name _ rest => name :: rest.names

/-- The entry with a name. -/
def find? (wanted : Segment) : Listing → Option Entry
  | .nil => none
  | .file name content rest => if name = wanted then some (.file content) else rest.find? wanted
  | .directory name inner rest =>
    if name = wanted then some (.directory inner) else rest.find? wanted

/-- The listing of the directory with a name, empty if there is none. -/
def innerOf (wanted : Segment) (listing : Listing) : Listing :=
  match listing.find? wanted with
  | some (.directory inner) => inner
  | _ => .nil

/-- The listing with an entry put in its place, instead of one with the same name. -/
def insert (wanted : Segment) (entry : Entry) : Listing → Listing
  | .nil => cons wanted entry .nil
  | .file name content rest =>
    match compare wanted name with
    | .lt => cons wanted entry (.file name content rest)
    | .eq => cons wanted entry rest
    | .gt => .file name content (rest.insert wanted entry)
  | .directory name inner rest =>
    match compare wanted name with
    | .lt => cons wanted entry (.directory name inner rest)
    | .eq => cons wanted entry rest
    | .gt => .directory name inner (rest.insert wanted entry)

/-- The listing without the entry of a name. -/
def erase (wanted : Segment) : Listing → Listing
  | .nil => .nil
  | .file name content rest =>
    if name = wanted then rest else .file name content (rest.erase wanted)
  | .directory name inner rest =>
    if name = wanted then rest else .directory name inner (rest.erase wanted)

/-- The listing with a file at the end of a chain of directories, which are made where they are
missing. -/
def write (content : Content) : List Segment → Listing → Listing
  | [], listing => listing
  | [name], listing => listing.insert name (.file content)
  | name :: more, listing =>
    listing.insert name (.directory (write content more (listing.innerOf name)))

/-- The listing with a chain of directories, which are made where they are missing. -/
def makeDirectories : List Segment → Listing → Listing
  | [], listing => listing
  | name :: more, listing =>
    listing.insert name (.directory (makeDirectories more (listing.innerOf name)))

/-- The listing without the entry at the end of a chain of directories. -/
def remove : List Segment → Listing → Listing
  | [], listing => listing
  | [name], listing => listing.erase name
  | name :: more, listing =>
    match listing.find? name with
    | some (.directory inner) => listing.insert name (.directory (remove more inner))
    | _ => listing

/-- Every name of the listing comes after the given one. -/
def Above (name : Segment) (listing : Listing) : Prop :=
  ∀ other ∈ listing.names, compare name other = .lt

/-- Every name can stand in a directory, and the names are in strictly increasing order, at every
level. -/
def WellFormed : Listing → Prop
  | .nil => True
  | .file name _ rest => Path.NamesEntry name ∧ Above name rest ∧ rest.WellFormed
  | .directory name inner rest =>
    Path.NamesEntry name ∧ Above name rest ∧ inner.WellFormed ∧ rest.WellFormed

end Listing

/-- The listing of the entry, if it has one, is well formed. -/
def Entry.WellFormed : Entry → Prop
  | .file _ => True
  | .directory inner => inner.WellFormed

namespace Listing

/-- The names of a listing are that of its first entry and those of the rest. -/
@[simp] theorem names_cons (name : Segment) (entry : Entry) (rest : Listing) :
    (cons name entry rest).names = name :: rest.names := by
  cases entry <;> rfl

/-- A listing is well formed if its first entry is, stands above the others and has a name that can
stand in a directory, and the rest is well formed. -/
theorem wellFormed_cons (name : Segment) (entry : Entry) (rest : Listing) :
    (cons name entry rest).WellFormed ↔
      Path.NamesEntry name ∧ Above name rest ∧ entry.WellFormed ∧ rest.WellFormed := by
  cases entry <;> simp [cons, WellFormed, Entry.WellFormed]

/-- Inserting adds one name at most. -/
theorem mem_names_insert {other wanted : Segment} {entry : Entry} {listing : Listing}
    (h : other ∈ (listing.insert wanted entry).names) :
    other = wanted ∨ other ∈ listing.names := by
  induction listing with
  | nil => simpa [insert, names] using h
  | file name content rest ih | directory name inner rest _ ih =>
    simp only [insert] at h
    split at h
    · simpa using h
    · rcases List.mem_cons.1 (names_cons .. ▸ h) with h | h
      · exact .inl h
      · exact .inr (List.mem_cons_of_mem _ h)
    · rcases List.mem_cons.1 h with h | h
      · exact .inr (h ▸ List.mem_cons_self)
      · exact (ih h).imp_right (List.mem_cons_of_mem _)

/-- A name before another one comes before all that come after that. -/
theorem Above.of_lt {first second : Segment} {listing : Listing} (h : Above second listing)
    (ordered : compare first second = .lt) : Above first listing :=
  fun other mem => Std.TransCmp.lt_trans ordered (h other mem)

/-- Inserting under a name that can stand in a directory keeps a listing well formed. -/
theorem wellFormed_insert {wanted : Segment} {entry : Entry} {listing : Listing}
    (wellFormed : listing.WellFormed) (named : Path.NamesEntry wanted)
    (entryWellFormed : entry.WellFormed) : (listing.insert wanted entry).WellFormed := by
  induction listing with
  | nil => exact (wellFormed_cons ..).2 ⟨named, by simp [Above, names], entryWellFormed, trivial⟩
  | file name content rest ih | directory name inner rest _ ih =>
    have above : Above name rest := wellFormed.2.1
    simp only [insert]
    split
    · next order =>
      refine (wellFormed_cons ..).2 ⟨named, ?_, entryWellFormed, wellFormed⟩
      intro other mem
      rcases List.mem_cons.1 mem with rfl | mem
      · exact order
      · exact above.of_lt order other mem
    · next order =>
      obtain rfl := Std.LawfulEqCmp.compare_eq_iff_eq.1 order
      exact (wellFormed_cons ..).2 ⟨named, above, entryWellFormed, by simp_all [WellFormed]⟩
    · next order =>
      have later : Above name (rest.insert wanted entry) := by
        intro other mem
        rcases mem_names_insert mem with rfl | mem
        · exact Std.OrientedCmp.lt_of_gt order
        · exact above other mem
      simp_all [WellFormed]

/-- Erasing takes names away only. -/
theorem mem_names_of_mem_erase {other wanted : Segment} {listing : Listing}
    (h : other ∈ (listing.erase wanted).names) : other ∈ listing.names := by
  induction listing with
  | nil => exact h
  | file name content rest ih | directory name inner rest _ ih =>
    simp only [erase] at h
    split at h
    · exact List.mem_cons_of_mem _ h
    · rcases List.mem_cons.1 h with h | h
      · exact h ▸ List.mem_cons_self
      · exact List.mem_cons_of_mem _ (ih h)

/-- Erasing keeps a listing well formed. -/
theorem wellFormed_erase {wanted : Segment} {listing : Listing}
    (wellFormed : listing.WellFormed) : (listing.erase wanted).WellFormed := by
  induction listing with
  | nil => exact trivial
  | file name content rest ih | directory name inner rest _ ih =>
    have above : Above name rest := wellFormed.2.1
    have later : Above name (rest.erase wanted) :=
      fun other mem => above other (mem_names_of_mem_erase mem)
    simp only [erase]
    split <;> simp_all [WellFormed]

/-- What is found in a well-formed listing is well formed. -/
theorem wellFormed_of_find? {wanted : Segment} {entry : Entry} {listing : Listing}
    (wellFormed : listing.WellFormed) (h : listing.find? wanted = some entry) :
    entry.WellFormed := by
  induction listing with
  | nil => simp [find?] at h
  | file name content rest ih =>
    simp only [find?] at h
    split at h
    · exact Option.some.inj h ▸ trivial
    · exact ih wellFormed.2.2 h
  | directory name inner rest _ ih =>
    simp only [find?] at h
    split at h
    · exact Option.some.inj h ▸ wellFormed.2.2.1
    · exact ih wellFormed.2.2.2 h

/-- The directory of a name in a well-formed listing is well formed. -/
theorem wellFormed_innerOf {wanted : Segment} {listing : Listing}
    (wellFormed : listing.WellFormed) : (listing.innerOf wanted).WellFormed := by
  unfold innerOf
  split
  · next found => exact wellFormed_of_find? wellFormed found
  · exact trivial

/-- Writing a file at a chain of names that can stand in directories keeps a listing well formed. -/
theorem wellFormed_write {content : Content} {path : List Segment} {listing : Listing}
    (wellFormed : listing.WellFormed) (named : ∀ name ∈ path, Path.NamesEntry name) :
    (write content path listing).WellFormed := by
  induction path generalizing listing with
  | nil => exact wellFormed
  | cons name more ih =>
    have first := named name List.mem_cons_self
    cases more with
    | nil => exact wellFormed_insert wellFormed first trivial
    | cons next others =>
      exact wellFormed_insert wellFormed first
        (ih (wellFormed_innerOf wellFormed) fun name mem => named name (List.mem_cons_of_mem _ mem))

/-- Making directories at a chain of names that can stand in directories keeps a listing well
formed. -/
theorem wellFormed_makeDirectories {path : List Segment} {listing : Listing}
    (wellFormed : listing.WellFormed) (named : ∀ name ∈ path, Path.NamesEntry name) :
    (makeDirectories path listing).WellFormed := by
  induction path generalizing listing with
  | nil => exact wellFormed
  | cons name more ih =>
    exact wellFormed_insert wellFormed (named name List.mem_cons_self)
      (ih (wellFormed_innerOf wellFormed) fun name mem => named name (List.mem_cons_of_mem _ mem))

/-- Removing an entry at a chain of names that can stand in directories keeps a listing well
formed. -/
theorem wellFormed_remove {path : List Segment} {listing : Listing}
    (wellFormed : listing.WellFormed) (named : ∀ name ∈ path, Path.NamesEntry name) :
    (remove path listing).WellFormed := by
  induction path generalizing listing with
  | nil => exact wellFormed
  | cons name more ih =>
    cases more with
    | nil => exact wellFormed_erase wellFormed
    | cons next others =>
      simp only [remove]
      split
      · next found =>
        exact wellFormed_insert wellFormed (named name List.mem_cons_self)
          (ih (wellFormed_of_find? wellFormed found)
            fun name mem => named name (List.mem_cons_of_mem _ mem))
      · exact wellFormed

end Listing

end AssetUsage
