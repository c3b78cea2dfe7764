import AssetUsage.Proofs.Path.Bytes
import AssetUsage.Report.Render
import Mathlib.Algebra.Ring.Nat
import Mathlib.Data.List.Dedup
import Mathlib.Data.List.Induction

/-!
# Counting shown files

A tally is kept in one pass: the texts seen so far stand in the order in which they came, and each
has a count. A text is put into the order when its count is still zero (`Seen.see`). What one text
does to the pass keeps `Seen.After`, hence so does the whole pass, and what the pass ends with is
the tally (`entries_foldl_see`). All that can be asked of a tally is in `Tallies`.
-/

namespace AssetUsage.Report

/-- The texts seen so far, and how often each was. -/
structure Seen where
  order : List (List Char)
  counts : List Char → ℕ

namespace Seen

/-- Nothing was seen. -/
def nothing : Seen := ⟨[], fun _ => 0⟩

/-- One more text is seen. -/
def see (seen : Seen) (text : List Char) : Seen :=
  ⟨if seen.counts text = 0 then seen.order ++ [text] else seen.order,
    Function.update seen.counts text (seen.counts text + 1)⟩

/-- Every text seen, with its count. -/
def entries (seen : Seen) : List (List Char × ℕ) :=
  seen.order.map fun text => (text, seen.counts text)

/-- What was seen after the texts. -/
structure After (seen : Seen) (texts : List (List Char)) : Prop where
  order : seen.order = texts.eraseDups
  counts (text : List Char) : seen.counts text = texts.count text
  distinct : seen.order.Nodup
  /-- The order is that of first occurrence. -/
  ordered : seen.order.Pairwise fun first second => texts.idxOf first < texts.idxOf second
  /-- Every text seen is counted. -/
  total : (seen.order.map seen.counts).sum = texts.length

/-- The count of a text makes no difference to others. -/
theorem map_update_of_not_mem {order : List (List Char)} {text : List Char}
    (apart : text ∉ order) (counts : List Char → ℕ) (count : ℕ) :
    order.map (Function.update counts text count) = order.map counts := by
  refine List.map_congr_left fun other mem => Function.update_of_ne ?_ ..
  rintro rfl
  exact apart mem

/-- To count a text that stands in the order once adds one to the total. -/
theorem sum_map_update {order : List (List Char)} (distinct : order.Nodup) {text : List Char}
    (mem : text ∈ order) (counts : List Char → ℕ) :
    (order.map (Function.update counts text (counts text + 1))).sum =
      (order.map counts).sum + 1 := by
  induction order with
  | nil => contradiction
  | cons first others ih =>
    obtain ⟨apart, distinct⟩ := List.nodup_cons.1 distinct
    rw [List.map_cons, List.map_cons, List.sum_cons, List.sum_cons]
    obtain rfl | behind := List.mem_cons.1 mem
    · rw [Function.update_self, map_update_of_not_mem apart]
      omega
    · have other : first ≠ text := fun same => apart (same ▸ behind)
      rw [Function.update_of_ne other, ih distinct behind]
      omega

/-- What a text does to the order: it is put behind the others if it is new. -/
theorem After.order_see {seen : Seen} {texts : List (List Char)} (after : seen.After texts)
    (text : List Char) :
    (text ∈ texts ∧ (seen.see text).order = seen.order) ∨
    (text ∉ texts ∧ (seen.see text).order = seen.order ++ [text]) := by
  have zero : seen.counts text = 0 ↔ text ∉ texts := by
    rw [after.counts, List.count_eq_zero]
  by_cases known : text ∈ texts
  · exact .inl ⟨known, if_neg (by simpa [zero] using known)⟩
  · exact .inr ⟨known, if_pos (zero.2 known)⟩

/-- One more text is put into the order if it is new, and counted. -/
theorem After.see {seen : Seen} {texts : List (List Char)} (after : seen.After texts)
    (text : List Char) : (seen.see text).After (texts ++ [text]) := by
  have mem_order : ∀ other, other ∈ seen.order ↔ other ∈ texts := fun other => by
    rw [after.order, List.mem_eraseDups]
  have earlier : seen.order.Pairwise fun first second =>
      (texts ++ [text]).idxOf first < (texts ++ [text]).idxOf second := by
    refine after.ordered.imp_of_mem fun {first second} memFirst memSecond before => ?_
    rwa [List.idxOf_append_of_mem ((mem_order first).1 memFirst),
      List.idxOf_append_of_mem ((mem_order second).1 memSecond)]
  have counts : ∀ other, (seen.see text).counts other = (texts ++ [text]).count other := by
    intro other
    change Function.update seen.counts text (seen.counts text + 1) other = _
    rw [List.count_append]
    by_cases same : other = text
    · rw [same, Function.update_self, List.count_singleton_self, after.counts]
    · have absent : other ∉ [text] := by simpa using same
      rw [Function.update_of_ne same, List.count_eq_zero.2 absent, after.counts, Nat.add_zero]
  obtain ⟨known, order⟩ | ⟨new, order⟩ := after.order_see text
  · refine ⟨?_, counts, order ▸ after.distinct, order ▸ earlier, ?_⟩
    · rw [order, after.order, List.eraseDups_append]
      simp [List.removeAll, known]
    · rw [order, List.length_append, ← after.total]
      exact sum_map_update after.distinct ((mem_order text).2 known) seen.counts
  · have apart : text ∉ seen.order := fun mem => new ((mem_order text).1 mem)
    refine ⟨?_, counts, ?_, ?_, ?_⟩
    · rw [order, after.order, List.eraseDups_append]
      simp [List.removeAll, new, List.eraseDups_cons]
    · rw [order]
      refine List.nodup_append.2 ⟨after.distinct, List.pairwise_singleton _ _, ?_⟩
      rintro other mem _ last rfl
      exact apart (List.mem_singleton.1 last ▸ mem)
    · rw [order]
      refine List.pairwise_append.2 ⟨earlier, List.pairwise_singleton _ _, ?_⟩
      intro first mem second last
      rw [List.mem_singleton.1 last, List.idxOf_append_of_mem ((mem_order first).1 mem),
        List.idxOf_append_of_notMem new]
      have place := List.idxOf_lt_length_iff.2 ((mem_order first).1 mem)
      omega
    · have once : Function.update seen.counts text (seen.counts text + 1) text = 1 := by
        rw [Function.update_self, after.counts, List.count_eq_zero.2 new]
      have others := map_update_of_not_mem apart seen.counts (seen.counts text + 1)
      change ((seen.see text).order.map
        (Function.update seen.counts text (seen.counts text + 1))).sum = _
      rw [order, List.map_append, List.sum_append, others, after.total, List.map_singleton, once,
        List.sum_singleton, List.length_append, List.length_singleton]

/-- What was seen after all texts, from the first on. -/
theorem after_foldl_see (texts : List (List Char)) : (texts.foldl see nothing).After texts := by
  induction texts using List.reverseRecOn with
  | nil => exact ⟨rfl, fun _ => rfl, List.nodup_nil, List.Pairwise.nil, rfl⟩
  | append_singleton texts text ih =>
    rw [List.foldl_append]
    exact ih.see text

/-- The pass ends with the tally. -/
theorem entries_foldl_see (texts : List (List Char)) :
    (texts.foldl see nothing).entries = tally texts := by
  have after := after_foldl_see texts
  rw [entries, after.order, tally]
  exact List.map_congr_left fun text _ => congrArg (text, ·) (after.counts text)

end Seen

/-- The entries are a tally of the texts. -/
structure Tallies (texts : List (List Char)) (entries : List (List Char × ℕ)) : Prop where
  /-- No text has two entries. -/
  distinct : (entries.map Prod.fst).Nodup
  /-- The entries stand in the order in which their texts first occur. -/
  ordered : (entries.map Prod.fst).Pairwise fun first second =>
    texts.idxOf first < texts.idxOf second
  mem_iff : ∀ text, text ∈ entries.map Prod.fst ↔ text ∈ texts
  counts : ∀ entry ∈ entries, 1 ≤ entry.2 ∧ entry.2 = texts.count entry.1
  /-- The counts add up. -/
  total : (entries.map Prod.snd).sum = texts.length

/-- A tally is one. -/
theorem tallies_tally (texts : List (List Char)) : Tallies texts (tally texts) := by
  have after := Seen.after_foldl_see texts
  have entries := Seen.entries_foldl_see texts
  generalize texts.foldl Seen.see Seen.nothing = seen at after entries
  have names : (tally texts).map Prod.fst = seen.order := by
    rw [← entries, Seen.entries, List.map_map]
    exact List.map_id _
  have counts : (tally texts).map Prod.snd = seen.order.map seen.counts := by
    rw [← entries, Seen.entries, List.map_map]
    rfl
  refine ⟨names ▸ after.distinct, names ▸ after.ordered, ?_, ?_, counts ▸ after.total⟩
  · intro text
    rw [names, after.order, List.mem_eraseDups]
  · intro entry mem
    obtain ⟨text, listed, rfl⟩ := List.mem_map.1 mem
    exact ⟨List.count_pos_iff.2 (List.mem_eraseDups.1 listed), rfl⟩

/-- The entries of referencing files are a tally of their shown texts. -/
theorem referencingFiles_eq (root : Path) (reports : List UsageReport) :
    referencingFiles root reports = tally ((usages reports).map (·.file.shownFrom root)) := by
  rw [referencingFiles, fileEntries, usageFiles, List.map_map]
  exact congrArg tally (List.map_congr_left fun usage _ => OsPath.shownFrom_ofPath usage.file root)

end AssetUsage.Report
