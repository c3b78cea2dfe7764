import AssetUsage.Proofs.Json.Tokens

/-!
# JSON values

A JSON text stands for one value: its tokens are those of an atom, of an array or of an object, with
nothing behind them. Every value is read back from its tokens, whatever follows them
(`readValue?_tokens`).
-/

namespace AssetUsage.Json

/-- What a JSON text stands for. -/
inductive Value where
  | atom (value : Atom)
  | array (items : List Value)
  /-- Fields in the order in which they are written. -/
  | object (fields : List (List Char × Value))

mutual

/-- The tokens of a value. -/
def Value.tokens : Value → List Token
  | .atom value => [.atom value]
  | .array items => .beginArray :: itemTokens items ++ [.endArray]
  | .object fields => .beginObject :: fieldTokens fields ++ [.endObject]

/-- The tokens of items with commas between them. -/
def itemTokens : List Value → List Token
  | [] => []
  | [item] => item.tokens
  | item :: second :: others => item.tokens ++ .comma :: itemTokens (second :: others)

/-- The tokens of fields with commas between them. -/
def fieldTokens : List (List Char × Value) → List Token
  | [] => []
  | [(name, value)] => .atom (.text name) :: .colon :: value.tokens
  | (name, value) :: second :: others =>
    .atom (.text name) :: .colon :: value.tokens ++ .comma :: fieldTokens (second :: others)

end

/-- The tokens of one field. -/
def tokensOfField (field : List Char × Value) : List Token :=
  .atom (.text field.1) :: .colon :: field.2.tokens

/-- The tokens of items are those of each item with commas between them. -/
theorem itemTokens_eq (items : List Value) :
    itemTokens items = [Token.comma].intercalate (items.map Value.tokens) := by
  match items with
  | [] => rfl
  | [item] => rw [itemTokens, List.map_singleton, List.intercalate_singleton]
  | item :: second :: others =>
    have ih := itemTokens_eq (second :: others)
    simp only [List.map_cons, List.intercalate_cons_cons] at ih ⊢
    rw [itemTokens, ih, List.append_assoc, List.singleton_append]

/-- The tokens of fields are those of each field with commas between them. -/
theorem fieldTokens_eq (fields : List (List Char × Value)) :
    fieldTokens fields = [Token.comma].intercalate (fields.map tokensOfField) := by
  match fields with
  | [] => rfl
  | [(name, value)] =>
    rw [fieldTokens, List.map_singleton, List.intercalate_singleton, tokensOfField]
  | (name, value) :: second :: others =>
    have ih := fieldTokens_eq (second :: others)
    simp only [List.map_cons, List.intercalate_cons_cons] at ih ⊢
    rw [fieldTokens, ih, List.append_assoc, List.singleton_append]
    rfl

mutual

/-- The value at the start of tokens, and the tokens behind it. -/
def readValue? (tokens : List Token) : Option (Value × List Token) :=
  match tokens with
  | .atom value :: rest => some (.atom value, rest)
  | .beginArray :: .endArray :: rest => some (.array [], rest)
  | .beginArray :: rest => (readItems? rest).map fun (items, behind) => (.array items, behind)
  | .beginObject :: .endObject :: rest => some (.object [], rest)
  | .beginObject :: rest => (readFields? rest).map fun (fields, behind) => (.object fields, behind)
  | _ => none
termination_by (tokens.length, 0)

/-- The items up to the end of their array, at least one, and the tokens behind it. -/
def readItems? (tokens : List Token) : Option (List Value × List Token) :=
  match readValue? tokens with
  | some (item, .comma :: rest) =>
    if rest.length < tokens.length then
      (readItems? rest).map fun (others, behind) => (item :: others, behind)
    else none
  | some (item, .endArray :: rest) => some ([item], rest)
  | _ => none
termination_by (tokens.length, 1)

/-- The fields up to the end of their object, at least one, and the tokens behind it. -/
def readFields? (tokens : List Token) : Option (List (List Char × Value) × List Token) :=
  match tokens with
  | .atom (.text name) :: .colon :: behindName =>
    match readValue? behindName with
    | some (value, .comma :: rest) =>
      if rest.length < behindName.length then
        (readFields? rest).map fun (others, behind) => ((name, value) :: others, behind)
      else none
    | some (value, .endObject :: rest) => some ([(name, value)], rest)
    | _ => none
  | _ => none
termination_by (tokens.length, 1)

end

/-- The value that a JSON text stands for. -/
def decode? (text : List Char) : Option Value := do
  let tokens ← tokens? text
  match ← readValue? tokens with
  | (value, []) => some value
  | _ => none

/-- Items do not begin with the end of their array. -/
theorem ne_endArray_of_itemTokens (item : Value) (others : List Value) (rest : List Token) :
    ∀ behind, itemTokens (item :: others) ++ rest ≠ .endArray :: behind := by
  cases others <;> cases item <;> simp [itemTokens, Value.tokens]

/-- Fields do not begin with the end of their object. -/
theorem ne_endObject_of_fieldTokens (field : List Char × Value)
    (others : List (List Char × Value)) (rest : List Token) :
    ∀ behind, fieldTokens (field :: others) ++ rest ≠ .endObject :: behind := by
  obtain ⟨name, value⟩ := field
  cases others <;> simp [fieldTokens]

/-- The items of a bracket that opens an array are read behind it. -/
theorem readValue?_beginArray {tokens : List Token} (other : ∀ rest, tokens ≠ .endArray :: rest) :
    readValue? (.beginArray :: tokens) =
      (readItems? tokens).map fun (items, behind) => (.array items, behind) := by
  rw [readValue?]
  exact other

/-- The fields of a brace that opens an object are read behind it. -/
theorem readValue?_beginObject {tokens : List Token}
    (other : ∀ rest, tokens ≠ .endObject :: rest) :
    readValue? (.beginObject :: tokens) =
      (readFields? tokens).map fun (fields, behind) => (.object fields, behind) := by
  rw [readValue?]
  exact other

/-- What is behind a comma is shorter than the whole. -/
theorem length_lt_append_cons (front : List Token) (separator : Token) (rest : List Token) :
    rest.length < (front ++ separator :: rest).length := by
  rw [List.length_append, List.length_cons]
  omega

mutual

/-- A value is read back from its tokens. -/
theorem readValue?_tokens (value : Value) (rest : List Token) :
    readValue? (value.tokens ++ rest) = some (value, rest) := by
  match value with
  | .atom value => rw [Value.tokens, List.singleton_append, readValue?]
  | .array [] => rw [Value.tokens, itemTokens, List.singleton_append, List.cons_append,
      List.singleton_append, readValue?]
  | .array (item :: others) =>
    have other := ne_endArray_of_itemTokens item others (.endArray :: rest)
    rw [Value.tokens, List.append_assoc, List.cons_append, List.singleton_append,
      readValue?_beginArray other, readItems?_tokens (item :: others) (List.cons_ne_nil _ _),
      Option.map_some]
  | .object [] => rw [Value.tokens, fieldTokens, List.singleton_append, List.cons_append,
      List.singleton_append, readValue?]
  | .object (field :: others) =>
    have other := ne_endObject_of_fieldTokens field others (.endObject :: rest)
    rw [Value.tokens, List.append_assoc, List.cons_append, List.singleton_append,
      readValue?_beginObject other, readFields?_tokens (field :: others) (List.cons_ne_nil _ _),
      Option.map_some]

/-- The items of an array are read back from their tokens. -/
theorem readItems?_tokens (items : List Value) (filled : items ≠ []) (rest : List Token) :
    readItems? (itemTokens items ++ .endArray :: rest) = some (items, rest) := by
  match items with
  | [item] => rw [itemTokens, readItems?, readValue?_tokens item]
  | item :: second :: others =>
    have head := readValue?_tokens item
      (.comma :: (itemTokens (second :: others) ++ .endArray :: rest))
    have tail := readItems?_tokens (second :: others) (List.cons_ne_nil _ _) rest
    rw [itemTokens, List.append_assoc, List.cons_append, readItems?, head]
    simp only [if_pos (length_lt_append_cons ..), tail, Option.map_some]

/-- The fields of an object are read back from their tokens. -/
theorem readFields?_tokens (fields : List (List Char × Value)) (filled : fields ≠ [])
    (rest : List Token) :
    readFields? (fieldTokens fields ++ .endObject :: rest) = some (fields, rest) := by
  match fields with
  | [(name, value)] =>
    rw [fieldTokens, List.cons_append, List.cons_append, readFields?, readValue?_tokens value]
  | (name, value) :: second :: others =>
    have head := readValue?_tokens value
      (.comma :: (fieldTokens (second :: others) ++ .endObject :: rest))
    have tail := readFields?_tokens (second :: others) (List.cons_ne_nil _ _) rest
    rw [fieldTokens, List.cons_append, List.cons_append, List.cons_append, List.cons_append,
      List.append_assoc, List.cons_append, readFields?, head]
    simp only [if_pos (length_lt_append_cons ..), tail, Option.map_some]

end

end AssetUsage.Json
