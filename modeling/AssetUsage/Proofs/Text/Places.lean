import AssetUsage.Text.Basic
import Mathlib.Data.List.Basic

/-!
# Places behind a text

Finding all places of a form goes from left to right and passes over what it takes. So a place is
looked at only if nothing found before it reaches beyond it: where every reading that starts in a
text ends in it, what follows the text is searched as if it stood alone (`findAllFrom_append`).
-/

namespace AssetUsage.Text

variable {α : Type} {read? : Reader α}

/-- Whatever is read from a place in `front` on ends before `text`. -/
def EndsWithin (read? : Reader α) (front text : List Char) : Prop :=
  ∀ before part value behind, part <:+ front → part ≠ [] →
    read? before (part ++ text) = some (value, behind) → text.length ≤ behind.length

/-- What follows a text in which all readings end is searched from its first place on. -/
theorem findAllFrom_append {passed : Nat} {before : Option Char} {front text : List Char}
    (ends : EndsWithin read? front text) (inside : passed ≤ front.length) :
    ∃ found, findAllFrom read? passed before (front ++ text) =
      found ++ findAllFrom read? 0 (front.getLast?.or before) text := by
  induction front generalizing passed before with
  | nil =>
    obtain rfl : passed = 0 := Nat.le_zero.1 inside
    exact ⟨[], rfl⟩
  | cons c rest ih =>
    have endsLater : EndsWithin read? rest text := fun before part value behind suffix =>
      ends before part value behind (suffix.trans (List.suffix_cons c rest))
    have last : (c :: rest).getLast?.or before = rest.getLast?.or (some c) := by
      rw [List.getLast?_cons]
      cases rest.getLast? <;> rfl
    rw [last, List.cons_append]
    cases passed with
    | succ left => exact ih endsLater (Nat.le_of_succ_le_succ inside)
    | zero =>
      rw [findAllFrom]
      cases read : read? before (c :: (rest ++ text)) with
      | none => exact ih endsLater (Nat.zero_le _)
      | some result =>
        obtain ⟨value, behind⟩ := result
        have reach := ends before (c :: rest) value behind (List.suffix_refl _)
          (List.cons_ne_nil c rest) read
        have left : (rest ++ text).length - behind.length ≤ rest.length := by
          rw [List.length_append]
          omega
        obtain ⟨found, same⟩ : ∃ found, findAllFrom read? _ (some c) (rest ++ text) =
            found ++ findAllFrom read? 0 (rest.getLast?.or (some c)) text := ih endsLater left
        exact ⟨value :: found, congrArg (value :: ·) same⟩

/-- Nothing is found in a text that is passed over. -/
theorem findAllFrom_of_length_le {passed : Nat} {before : Option Char} {text : List Char}
    (short : text.length ≤ passed) : findAllFrom read? passed before text = [] := by
  induction text generalizing passed before with
  | nil => rfl
  | cons c rest ih =>
    obtain ⟨left, rfl⟩ : ∃ left, passed = left + 1 :=
      Nat.exists_eq_add_of_le' (Nat.le_trans (Nat.le_add_left 1 rest.length) short)
    exact ih (Nat.le_of_succ_le_succ short)

/-- What is read behind a text in which all readings end is found. -/
theorem mem_findAll_append {front text behind : List Char} {value : α} (nonempty : text ≠ [])
    (ends : EndsWithin read? front text)
    (read : read? front.getLast? text = some (value, behind)) :
    value ∈ findAll read? (front ++ text) := by
  obtain ⟨found, same⟩ : ∃ found, findAllFrom read? 0 none (front ++ text) =
      found ++ findAllFrom read? 0 (front.getLast?.or none) text :=
    findAllFrom_append ends (Nat.zero_le _)
  obtain ⟨c, rest, rfl⟩ := List.exists_cons_of_ne_nil nonempty
  rw [findAll, same, Option.or_none, findAllFrom]
  simp [read]

/-- A text that is read as a whole holds nothing else. -/
theorem findAll_of_read_all {text : List Char} {value : α} (nonempty : text ≠ [])
    (read : read? none text = some (value, [])) : findAll read? text = [value] := by
  obtain ⟨c, rest, rfl⟩ := List.exists_cons_of_ne_nil nonempty
  have rest : findAllFrom read? (rest.length - 0) (some c) rest = [] :=
    findAllFrom_of_length_le (Nat.le_refl _)
  simp only [findAll, findAllFrom, read, List.length_nil, rest]

/-- A text of the length that is passed over is left out. -/
theorem findAllFrom_pass (before : Option Char) (front text : List Char) :
    findAllFrom read? front.length before (front ++ text) =
      findAllFrom read? 0 (front.getLast?.or before) text := by
  induction front generalizing before with
  | nil => rfl
  | cons c rest ih =>
    rw [List.length_cons, List.cons_append, findAllFrom, ih, List.getLast?_cons]
    cases rest.getLast? <;> rfl

/-- The search goes on behind what was read. -/
theorem findAllFrom_of_read {before : Option Char} {front behind : List Char} {value : α}
    (nonempty : front ≠ []) (read : read? before (front ++ behind) = some (value, behind)) :
    findAllFrom read? 0 before (front ++ behind) =
      value :: findAllFrom read? 0 front.getLast? behind := by
  obtain ⟨c, rest, rfl⟩ := List.exists_cons_of_ne_nil nonempty
  have taken : (rest ++ behind).length - behind.length = rest.length := by
    rw [List.length_append, Nat.add_sub_cancel]
  rw [List.cons_append] at read ⊢
  rw [findAllFrom, read]
  simp only [taken]
  rw [findAllFrom_pass, List.getLast?_cons]
  cases rest.getLast? <;> rfl

/-- A text from no place of which anything is read is left out. -/
theorem findAllFrom_of_none {before : Option Char} {front text : List Char}
    (none : ∀ before part, part <:+ front → part ≠ [] → read? before (part ++ text) = none) :
    findAllFrom read? 0 before (front ++ text) =
      findAllFrom read? 0 (front.getLast?.or before) text := by
  induction front generalizing before with
  | nil => rfl
  | cons c rest ih =>
    have here := none before (c :: rest) (List.suffix_refl _) (List.cons_ne_nil c rest)
    have later := @ih (some c) fun before part suffix =>
      none before part (suffix.trans (List.suffix_cons c rest))
    rw [List.cons_append] at here ⊢
    rw [findAllFrom, here]
    simp only [later, List.getLast?_cons]
    cases rest.getLast? <;> rfl

/-- Text behind that no reading takes, and in which nothing is found, makes no difference. -/
theorem findAllFrom_append_of_apart {passed : Nat} {before : Option Char} {text behind : List Char}
    (apart : ∀ before part, part <:+ text → part ≠ [] → read? before (part ++ behind) =
      (read? before part).map fun found => (found.1, found.2 ++ behind))
    (none : ∀ before, findAllFrom read? 0 before behind = []) (inside : passed ≤ text.length) :
    findAllFrom read? passed before (text ++ behind) = findAllFrom read? passed before text := by
  induction text generalizing passed before with
  | nil =>
    obtain rfl : passed = 0 := Nat.le_zero.1 inside
    exact none before
  | cons c rest ih =>
    have later : ∀ {passed before}, passed ≤ rest.length →
        findAllFrom read? passed before (rest ++ behind) = findAllFrom read? passed before rest :=
      ih fun before part suffix => apart before part (suffix.trans (List.suffix_cons c rest))
    cases passed with
    | succ left => exact later (Nat.le_of_succ_le_succ inside)
    | zero =>
      have here := apart before (c :: rest) (List.suffix_refl _) (List.cons_ne_nil c rest)
      rw [List.cons_append] at here ⊢
      rw [findAllFrom, findAllFrom, here]
      cases read? before (c :: rest) with
      | none => exact later (Nat.zero_le _)
      | some found =>
        have taken : (rest ++ behind).length - (found.2 ++ behind).length =
            rest.length - found.2.length := by
          simp only [List.length_append]
          omega
        simp only [Option.map_some, taken, later (Nat.sub_le _ _)]

/-- Readers that take the same find values in the same places. -/
theorem findAllFrom_map {β : Type} {other? : Reader β} {image : α → β}
    (same : ∀ before text, other? before text =
      (read? before text).map fun found => (image found.1, found.2))
    (passed : Nat) (before : Option Char) (text : List Char) :
    findAllFrom other? passed before text = (findAllFrom read? passed before text).map image := by
  induction text generalizing passed before with
  | nil => rfl
  | cons c rest ih =>
    cases passed with
    | succ left => exact ih left (some c)
    | zero =>
      rw [findAllFrom, findAllFrom, same]
      cases read? before (c :: rest) with
      | none => exact ih 0 (some c)
      | some found => exact congrArg (image found.1 :: ·) (ih _ (some c))

/-- What is found was read at some place. -/
theorem exists_of_mem_findAllFrom {passed : Nat} {before : Option Char} {text : List Char}
    {value : α} (mem : value ∈ findAllFrom read? passed before text) :
    ∃ front rest behind, text = front ++ rest ∧
      read? (front.getLast?.or before) rest = some (value, behind) := by
  induction text generalizing passed before with
  | nil => contradiction
  | cons c rest ih =>
    have later : ∀ {passed}, value ∈ findAllFrom read? passed (some c) rest →
        ∃ front more behind, c :: rest = front ++ more ∧
          read? (front.getLast?.or before) more = some (value, behind) := by
      intro passed mem
      obtain ⟨front, more, behind, rfl, read⟩ := ih mem
      refine ⟨c :: front, more, behind, rfl, ?_⟩
      rw [List.getLast?_cons]
      cases last : front.getLast? <;> rw [last] at read <;> exact read
    cases passed with
    | succ left => exact later mem
    | zero =>
      rw [findAllFrom] at mem
      split at mem
      · next found behind read =>
        rcases List.mem_cons.1 mem with rfl | mem
        · exact ⟨[], c :: rest, behind, rfl, read⟩
        · exact later mem
      · exact later mem

/-- What is found in a text was read at some place of it. -/
theorem exists_of_mem_findAll {text : List Char} {value : α} (mem : value ∈ findAll read? text) :
    ∃ front rest behind, text = front ++ rest ∧
      read? front.getLast? rest = some (value, behind) := by
  obtain ⟨front, rest, behind, whole, read⟩ := exists_of_mem_findAllFrom mem
  rw [Option.or_none] at read
  exact ⟨front, rest, behind, whole, read⟩

/-- The reader looks only at what follows, which starts with the character if anything is read. -/
structure ReadsFrom (read? : Reader α) (first : Char) : Prop where
  /-- What is read does not depend on the character in front. -/
  blind : ∀ before text, read? before text = read? none text
  starts : ∀ text, (read? none text).isSome = true → text.head? = some first

/-- What is read behind a word starts with its first character. -/
theorem readsFrom_of_word {first : Char} {word : List Char}
    {behind? : List Char → Option (α × List Char)} :
    ReadsFrom (fun _ text => ((first :: word).isPrefixOf? text).bind behind?) first := by
  refine ⟨fun _ _ => rfl, fun text read => ?_⟩
  obtain ⟨found, read⟩ := Option.isSome_iff_exists.1 read
  obtain ⟨behind, start, -⟩ := Option.bind_eq_some_iff.1 read
  rw [← List.isPrefixOf?_eq_some_iff_append_eq.1 start, List.cons_append, List.head?_cons]

namespace ReadsFrom

variable {first : Char} (reads : ReadsFrom read? first)
include reads

/-- A text is searched as if it stood alone. -/
theorem findAllFrom_eq (before : Option Char) (text : List Char) :
    findAllFrom read? 0 before text = findAll read? text := by
  cases text with
  | nil => rfl
  | cons c rest => rw [findAll, findAllFrom, findAllFrom, reads.blind before]

/-- What is read at the start is found first, and the search goes on behind it. -/
theorem findAll_of_read {front behind : List Char} {value : α} (nonempty : front ≠ [])
    (read : read? none (front ++ behind) = some (value, behind)) :
    findAll read? (front ++ behind) = value :: findAll read? behind := by
  rw [findAll, findAllFrom_of_read nonempty read, reads.findAllFrom_eq]

/-- Where nothing is read, the search goes on with the next character. -/
theorem findAll_cons_of_none {c : Char} {rest : List Char}
    (unread : read? none (c :: rest) = none) : findAll read? (c :: rest) = findAll read? rest := by
  rw [findAll, findAllFrom, unread, reads.findAllFrom_eq]

/-- A text without the first character of all readings is left out. -/
theorem findAll_append_of_notMem {front text : List Char} (absent : first ∉ front) :
    findAll read? (front ++ text) = findAll read? text := by
  induction front with
  | nil => rfl
  | cons c rest ih =>
    obtain ⟨other, later⟩ := not_or.1 (List.mem_cons.not.1 absent)
    have unread : read? none (c :: (rest ++ text)) = none := by
      rw [← Option.not_isSome_iff_eq_none]
      intro read
      exact other (Option.some.inj (reads.starts _ read)).symm
    rw [List.cons_append, reads.findAll_cons_of_none unread, ih later]

/-- In a text without the first character of all readings nothing is found. -/
theorem findAll_eq_nil_of_notMem {text : List Char} (absent : first ∉ text) :
    findAll read? text = [] := by
  rw [← List.append_nil text, reads.findAll_append_of_notMem absent]
  rfl

end ReadsFrom

end AssetUsage.Text
