import AssetUsage.Path.Name
import Mathlib.Data.List.TakeWhile

/-!
# The end of a path

A path and what is left of it behind a base end with the same file name. So an ending of the text
that is left, if it holds no separator, is an ending of the file name
(`exists_fileName?_of_relativeTo?`), and the extension can be read off it.
-/

namespace AssetUsage.Path

/-- An ending without separators of a chain of segments is an ending of the last one. -/
theorem suffix_getLast_of_intercalate {ending : List Char} (plain : '/' ∉ ending)
    {segments : List Segment} (nonempty : segments ≠ [])
    (h : ending <:+ ['/'].intercalate segments) : ending <:+ segments.getLast nonempty := by
  induction segments with
  | nil => contradiction
  | cons head tail ih =>
    cases tail with
    | nil => simpa using h
    | cons second others =>
      rw [List.getLast_cons (List.cons_ne_nil second others)]
      refine ih (List.cons_ne_nil second others) ?_
      rw [List.intercalate_cons_cons] at h
      have behind : '/' :: ['/'].intercalate (second :: others) <:+
          head ++ ['/'] ++ ['/'].intercalate (second :: others) := by simp
      rcases List.suffix_or_suffix_of_suffix h behind with short | long
      · rcases List.suffix_cons_iff.1 short with whole | inside
        · exact absurd (whole ▸ List.mem_cons_self) plain
        · exact inside
      · exact absurd (long.subset List.mem_cons_self) plain

/-- An ending of a path that is put together, if it is longer than a dot and holds no separator, is
an ending of the last segment. -/
theorem exists_getLast?_of_assemble {ending : List Char} (plain : '/' ∉ ending)
    (long : 1 < ending.length) {start : Start} {body : List Segment}
    (h : ending <:+ (assemble start body).text) :
    ∃ last, body.getLast? = some last ∧ ending <:+ last := by
  by_cases empty : body = []
  · subst empty
    have short : (assemble start []).text.length ≤ 1 := by cases start <;> simp [assemble]
    have length := h.length_le
    omega
  · refine ⟨body.getLast empty, List.getLast?_eq_some_getLast empty, ?_⟩
    cases start with
    | root =>
      rcases List.suffix_cons_iff.1 h with whole | inside
      · exact absurd (whole ▸ List.mem_cons_self) plain
      · exact suffix_getLast_of_intercalate plain empty inside
    | current =>
      have last := suffix_getLast_of_intercalate plain (List.cons_ne_nil ['.'] body) h
      rwa [List.getLast_cons empty] at last
    | plain => exact suffix_getLast_of_intercalate plain empty h

/-- Leaving out insignificant segments at the end exposes the last significant one. -/
theorem getLast?_dropTrailing (segments : List Segment) :
    (dropTrailing segments).getLast? = (segments.filter isSignificant).getLast? := by
  rw [dropTrailing, List.getLast?_reverse, List.getLast?_filter]
  exact (List.find?_eq_head?_dropWhile_not isSignificant _).symm

/-- What is left behind some significant segments is at the end. -/
theorem dropSignificant_suffix (count : Nat) (segments : List Segment) :
    dropSignificant count segments <:+ segments := by
  induction count generalizing segments with
  | zero => exact List.dropWhile_suffix _
  | succ count ih =>
    have tail := List.tail_suffix (segments.dropWhile (!isSignificant ·))
    exact (ih _).trans (tail.trans (List.dropWhile_suffix _))

/-- What is left of a path behind a base is put together from segments at its end. -/
theorem exists_of_stripPrefix? {path base rest : Path} (h : path.stripPrefix? base = some rest) :
    ∃ start more, more <:+ path.body ∧ rest = assemble start (dropTrailing more) := by
  unfold stripPrefix? at h
  split at h
  · dsimp only at h
    split at h
    · exact ⟨path.start, path.body, List.suffix_refl _, (Option.some.inj h).symm⟩
    · exact ⟨.plain, _, dropSignificant_suffix _ _, (Option.some.inj h).symm⟩
  · contradiction

/-- A last significant segment that is not `..` is the file name. -/
theorem fileName?_of_getLast? {path : Path} {last : Segment}
    (h : (path.body.filter isSignificant).getLast? = some last) (other : last ≠ ['.', '.']) :
    path.fileName? = some last := by
  have component : path.components.getLast? = some (.name last) := by
    rw [components, List.getLast?_append, List.getLast?_map, h]
    simp [Component.ofSegment, other]
  rw [fileName?, component]

/-- An ending of the shown text of a path behind a root is an ending of its file name. -/
theorem exists_fileName?_of_relativeTo? {ending text : List Char} (plain : '/' ∉ ending)
    (long : 2 < ending.length) {path root : Path} (found : path.relativeTo? root = some text)
    (h : ending <:+ text) : ∃ name, path.fileName? = some name ∧ ending <:+ name := by
  obtain ⟨rest, stripped, rfl⟩ := Option.map_eq_some_iff.1 found
  have unchanged : ending <:+ rest.text := by
    obtain ⟨source, ends, same⟩ := List.suffix_map_iff.1 h
    have kept : source.map (fun c => if c = '\\' then '/' else c) = source.map id := by
      refine List.map_congr_left fun c mem => ?_
      by_cases backslash : c = '\\'
      · subst backslash
        exact absurd (same ▸ List.mem_map_of_mem mem) plain
      · exact if_neg backslash
    rw [kept, List.map_id] at same
    exact same ▸ ends
  obtain ⟨start, more, inside, rfl⟩ := exists_of_stripPrefix? stripped
  obtain ⟨last, isLast, ends⟩ := exists_getLast?_of_assemble plain (by omega) unchanged
  rw [getLast?_dropTrailing] at isLast
  obtain ⟨front, whole⟩ := inside
  have isLastOfAll : (path.body.filter isSignificant).getLast? = some last := by
    rw [← whole, List.filter_append, List.getLast?_append, isLast, Option.some_or]
  refine ⟨last, fileName?_of_getLast? isLastOfAll ?_, ends⟩
  rintro rfl
  have length := ends.length_le
  simp only [List.length_cons, List.length_nil] at length
  omega

/-- A name ends with a dot and its extension. -/
theorem suffix_of_extensionOfName {name : Segment} {extension : List Char}
    (h : extensionOfName name = some extension) : '.' :: extension <:+ name := by
  unfold extensionOfName at h
  dsimp only at h
  split at h
  · next c before found =>
    obtain rfl := Option.some.inj h
    have whole : name.reverse.takeWhile (· != '.') ++ '.' :: c :: before = name.reverse := by
      rw [← found, List.takeWhile_append_dropWhile]
    refine ⟨(c :: before).reverse, ?_⟩
    have reversed := congrArg List.reverse whole
    simpa using reversed
  · contradiction

end AssetUsage.Path
