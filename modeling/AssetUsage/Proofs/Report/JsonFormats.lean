import AssetUsage.Proofs.Json.Decoding
import AssetUsage.Report.Render

/-!
# What the JSON formats tell

Whatever the targets, the paths and the texts of lines hold, the lines of `jsonl` and the array of
`json` are decoded to the records of all usages, one by one and in order (`json_formats_lossless`).
-/

namespace AssetUsage

open Json

/-- The object of a usage. -/
def UsageRecord.toJson (record : UsageRecord) : Value :=
  .object [("target".toList, .atom (.text record.target)),
    ("path".toList, .atom (.text record.path)), ("line".toList, .atom (.number record.line)),
    ("text".toList, .atom (.text record.text))]

/-- The value of the field with a name. -/
def Json.Value.field? (name : String) : Value → Option Value
  | .object fields => (fields.find? (·.1 == name.toList)).map (·.2)
  | _ => none

/-- The text that a value is. -/
def Json.Value.text? : Value → Option (List Char)
  | .atom (.text value) => some value
  | _ => none

/-- The natural number that a value is. -/
def Json.Value.nat? : Value → Option ℕ
  | .atom (.number value) => if value.den = 1 ∧ 0 ≤ value.num then some value.num.toNat else none
  | _ => none

/-- The usage that an object tells of. -/
def UsageRecord.ofJson? (value : Value) : Option UsageRecord := do
  let target ← (← value.field? "target").text?
  let path ← (← value.field? "path").text?
  let line ← (← value.field? "line").nat?
  let text ← (← value.field? "text").text?
  return ⟨target, path, line, text⟩

/-- A natural number is read as itself. -/
theorem Json.Value.nat?_number (n : ℕ) : (Value.atom (.number n)).nat? = some n := by
  simp [Value.nat?]

/-- A usage is had back from its object. -/
theorem UsageRecord.ofJson?_toJson (record : UsageRecord) :
    UsageRecord.ofJson? record.toJson = some record := by
  have target : record.toJson.field? "target" = some (.atom (.text record.target)) := rfl
  have path : record.toJson.field? "path" = some (.atom (.text record.path)) := rfl
  have line : record.toJson.field? "line" = some (.atom (.number record.line)) := rfl
  have text : record.toJson.field? "text" = some (.atom (.text record.text)) := rfl
  simp [ofJson?, target, path, line, text, Value.text?, Value.nat?_number]

namespace Report

/-- There are as many records as usages. -/
theorem length_records (tree : Tree) (root : Path) (reports : List UsageReport) :
    (records tree root reports).length = (usages reports).length := by
  simp [records, usages, List.length_flatMap]

/-- Records one a line are told apart at the line feeds. -/
theorem splitOn_compactLines {records : List Json.Record} (filled : records ≠ []) :
    (compactLines records).splitOn '\n' = records.map compact := by
  refine List.splitOn_intercalate '\n' ?_ (by simpa using filled)
  intro line mem
  obtain ⟨record, -, rfl⟩ := List.mem_map.1 mem
  exact control_not_mem_compact (by decide) record

/-- Each record on its line is decoded to the object of its usage. -/
theorem map_decode?_compact (records : List UsageRecord) :
    ((records.map usageFields).map compact).map decode? = records.map (some ·.toJson) := by
  rw [List.map_map, List.map_map]
  exact List.map_congr_left fun record _ => decode?_compact (usageFields record)

/-- The array of records is decoded to the array of their objects. -/
theorem decode?_indentedArray_usageFields (records : List UsageRecord) :
    decode? (indentedArray (records.map usageFields)) =
      some (.array (records.map UsageRecord.toJson)) := by
  rw [decode?_indentedArray, List.map_map]
  rfl

/-- The JSON formats lose nothing: `jsonl` is empty without usages and otherwise has one line for
each usage, `json` is one array, the objects of both are those of the usages in order, and every
record is had back from its object. -/
theorem json_formats_lossless (tree : Tree) (root : Path) (colour : Bool)
    (reports : List UsageReport) :
    let told := reports.flatMap fun report => report.usages.map (·.record tree root report.target)
    let jsonl := render tree root ⟨.jsonl, colour⟩ reports
    let json := render tree root ⟨.json, colour⟩ reports
    (usages reports = [] → jsonl = []) ∧
    (usages reports ≠ [] →
      (jsonl.splitOn '\n').length = (usages reports).length ∧
      (jsonl.splitOn '\n').map decode? = told.map (some ·.toJson)) ∧
    decode? json = some (.array (told.map UsageRecord.toJson)) ∧
    ∀ record, UsageRecord.ofJson? (UsageRecord.toJson record) = some record := by
  intro told jsonl json
  have count : told.length = (usages reports).length := length_records tree root reports
  refine ⟨?_, ?_, decode?_indentedArray_usageFields told, UsageRecord.ofJson?_toJson⟩
  · intro none_
    have empty : told = [] := List.eq_nil_of_length_eq_zero (by rw [count, none_]; rfl)
    change compactLines (told.map usageFields) = []
    rw [empty]
    rfl
  · intro filled
    have more : told.map usageFields ≠ [] := by
      rw [ne_eq, List.map_eq_nil_iff, ← List.length_eq_zero_iff, count, List.length_eq_zero_iff]
      exact filled
    have split : jsonl.splitOn '\n' = (told.map usageFields).map compact :=
      splitOn_compactLines more
    rw [split]
    exact ⟨by rw [List.length_map, List.length_map, count], map_decode?_compact told⟩

end Report

end AssetUsage
