import AssetUsage.Proofs.Json.Values
import AssetUsage.Proofs.Sequences

/-!
# Decoding what was written

Records on one line and records over several lines spell the same tokens, so both are decoded to the
objects that the records stand for (`decode?_compact`, `decode?_indentedArray`). A record on one
line holds no control character, whatever its texts hold (`control_not_mem_compact`), and an array
over several lines none but line feeds (`control_not_mem_indentedArray`).
-/

namespace AssetUsage.Json

open Text

/-- The text is read as the tokens in front of everything that does not go on with a word. -/
def Spells (text : List Char) (tokens : List Token) : Prop :=
  ∀ rest, StopsAt isInWord rest → tokens? (text ++ rest) = (tokens? rest).map (tokens ++ ·)

/-- The text is read as the tokens whatever follows. -/
def Closes (text : List Char) (tokens : List Token) : Prop :=
  ∀ rest, tokens? (text ++ rest) = (tokens? rest).map (tokens ++ ·)

/-- Whatever follows the text, it does not go on with a word. -/
def Separates (text : List Char) : Prop := ∀ rest, StopsAt isInWord (text ++ rest)

section Composition

variable {first second : List Char} {front behind : List Token}

/-- What is read whatever follows is read in front of everything that does not go on with a word. -/
theorem Closes.spells (closed : Closes first front) : Spells first front :=
  fun rest _ => closed rest

/-- Two texts that are each read whatever follows are read so together. -/
theorem Closes.append (closed : Closes first front) (others : Closes second behind) :
    Closes (first ++ second) (front ++ behind) := by
  intro rest
  rw [List.append_assoc, closed, others, Option.map_map]
  simp only [Function.comp_def, List.append_assoc]

/-- A text behind one that is read whatever follows is read as it is by itself. -/
theorem Closes.append_spells (closed : Closes first front) (others : Spells second behind) :
    Spells (first ++ second) (front ++ behind) := by
  intro rest stops
  rw [List.append_assoc, closed, others rest stops, Option.map_map]
  simp only [Function.comp_def, List.append_assoc]

/-- A text is read in front of one that does not go on with its last word. -/
theorem Spells.append_closes (spelled : Spells first front) (others : Closes second behind)
    (separated : Separates second) : Closes (first ++ second) (front ++ behind) := by
  intro rest
  rw [List.append_assoc, spelled _ (separated rest), others, Option.map_map]
  simp only [Function.comp_def, List.append_assoc]

/-- Items between separators that are read as commas are read one by one. -/
theorem Spells.intercalate {ι : Type} {separator : List Char} {text : ι → List Char}
    {tokens : ι → List Token} (comma : Closes separator [.comma]) (separated : Separates separator)
    (items : List ι) (spelled : ∀ item ∈ items, Spells (text item) (tokens item)) :
    Spells (separator.intercalate (items.map text))
      ([Token.comma].intercalate (items.map tokens)) := by
  match items with
  | [] =>
    intro rest _
    simp
  | [item] => simpa using spelled
  | item :: second :: others =>
    have ih := Spells.intercalate comma separated (second :: others)
      fun item mem => spelled item (List.mem_cons_of_mem _ mem)
    have head := (spelled item List.mem_cons_self).append_closes comma separated
    simp only [List.map_cons, List.intercalate_cons_cons] at ih ⊢
    exact head.append_spells ih

/-- Items between brackets are read with the brackets around them. -/
theorem Closes.enclose {ι : Type} {opening separator closing : List Char} {start stop : Token}
    {text : ι → List Char} {tokens : ι → List Token} (opens : Closes opening [start])
    (comma : Closes separator [.comma]) (separated : Separates separator)
    (closes : Closes closing [stop]) (ended : Separates closing) (items : List ι)
    (spelled : ∀ item ∈ items, Spells (text item) (tokens item)) :
    Closes (opening ++ separator.intercalate (items.map text) ++ closing)
      (start :: [Token.comma].intercalate (items.map tokens) ++ [stop]) :=
  (opens.append_spells (.intercalate comma separated items spelled)).append_closes closes ended

end Composition

/-- A token is read in front of the tokens of what is behind it. -/
theorem tokens?_of_readToken? {c : Char} {rest behind : List Char} {token : Token}
    (visible : isSpace c = false) (read : readToken? (c :: rest) = some (token, behind))
    (shorter : behind.length ≤ rest.length) :
    tokens? (c :: rest) = (tokens? behind).map (token :: ·) := by
  rw [tokens?, read]
  simp only [visible, Bool.false_eq_true, if_false, if_pos shorter]

/-- A bracket or a separator is read as its token. -/
theorem closes_mark {c : Char} {token : Token} (mark : Token.ofChar? c = some token) :
    Closes [c] [token] := by
  intro rest
  have quote : c ≠ '"' := by
    rintro rfl
    contradiction
  have visible : isSpace c = false := by
    simp only [isSpace, Bool.or_eq_false_iff, beq_eq_false_iff_ne]
    refine ⟨⟨⟨?_, ?_⟩, ?_⟩, ?_⟩ <;> rintro rfl <;> contradiction
  have read : readToken? (c :: rest) = some (token, rest) := by
    rw [readToken?, mark]
    exact quote
  exact tokens?_of_readToken? visible read le_rfl

/-- Blanks between tokens are passed over. -/
theorem closes_spaces (spaces : List Char) (blank : ∀ c ∈ spaces, isSpace c = true) :
    Closes spaces [] := by
  intro rest
  induction spaces with
  | nil => simp
  | cons c others ih =>
    rw [List.cons_append, tokens?, if_pos (blank c List.mem_cons_self)]
    exact ih fun c mem => blank c (List.mem_cons_of_mem _ mem)

/-- A string is read as its text. -/
theorem closes_encodeText (value : List Char) :
    Closes (encodeText value) [.atom (.text value)] := by
  intro rest
  have read : readToken? ('"' :: (value.flatMap escape ++ '"' :: rest)) =
      some (.atom (.text value), rest) := by
    rw [readToken?, readText?_escape, Option.map_some]
  have shorter : rest.length ≤ (value.flatMap escape ++ '"' :: rest).length := by
    rw [List.length_append, List.length_cons]
    omega
  rw [encodeText, List.append_assoc, List.cons_append, List.singleton_append]
  exact tokens?_of_readToken? rfl read shorter

/-- A digit is no blank, no quote and no mark. -/
theorem isDigit_apart {c : Char} (digit : c.isDigit = true) :
    isSpace c = false ∧ c ≠ '"' ∧ Token.ofChar? c = none := by
  have other : ∀ d : Char, d.isDigit = false → c ≠ d := by
    rintro d letter rfl
    rw [digit] at letter
    contradiction
  refine ⟨?_, other _ (by decide), ?_⟩
  · simp [isSpace, other ' ' (by decide), other '\n' (by decide), other '\r' (by decide),
      other '\t' (by decide)]
  · unfold Token.ofChar?
    split
    all_goals first | rfl | exact absurd digit (by decide)

/-- A number is read as itself where its digits end. -/
theorem spells_decimal (n : ℕ) : Spells (decimal n) [.atom (.number n)] := by
  intro rest stops
  have inside : ∀ c ∈ decimal n, isInWord c = true := by
    intro c mem
    simp [isInWord, Char.isAlphanum, isDigit_of_mem_decimal n c mem]
  have taken := takeWhile_run inside stops
  have left := dropWhile_run inside stops
  have word := readWord?_decimal n
  have digits := isDigit_of_mem_decimal n
  obtain ⟨first, others, form⟩ := List.exists_cons_of_ne_nil (decimal_ne_nil n)
  rw [form] at taken left word digits ⊢
  rw [List.cons_append] at taken left ⊢
  obtain ⟨visible, quote, noMark⟩ := isDigit_apart (digits first List.mem_cons_self)
  have read : readToken? (first :: (others ++ rest)) = some (.atom (.number n), rest) := by
    rw [readToken?, noMark, taken, left, word]
    · rfl
    · exact quote
  have shorter : rest.length ≤ (others ++ rest).length := by
    rw [List.length_append]
    omega
  exact tokens?_of_readToken? visible read shorter

/-- The atom that a field value stands for. -/
def Scalar.atom : Scalar → Atom
  | .text value => .text value
  | .number value => .number value

/-- The object that a record stands for. -/
def objectOf (record : Record) : Value :=
  .object (record.map fun (name, value) => (name, .atom value.atom))

/-- A field value is read back where a word may end. -/
theorem spells_encode (value : Scalar) : Spells value.encode [.atom value.atom] := by
  cases value with
  | text value => exact (closes_encodeText value).spells
  | number value => exact spells_decimal value

/-- A field is read as its name, a colon and its value. -/
theorem spells_field {colon : List Char} (between : Closes colon [.colon])
    (field : List Char × Scalar) :
    Spells (encodeText field.1 ++ (colon ++ field.2.encode))
      (tokensOfField (field.1, .atom field.2.atom)) :=
  (closes_encodeText field.1).append_spells (between.append_spells (spells_encode field.2))

/-- The tokens of a record are those of its fields between braces. -/
theorem tokens_objectOf (record : Record) :
    (objectOf record).tokens = .beginObject :: [Token.comma].intercalate
      (record.map fun field => tokensOfField (field.1, .atom field.2.atom)) ++ [.endObject] := by
  rw [objectOf, Value.tokens, fieldTokens_eq, List.map_map]
  rfl

/-- The tokens of an array are those of its items between brackets. -/
theorem tokens_array (items : List Value) :
    (Value.array items).tokens =
      .beginArray :: [Token.comma].intercalate (items.map Value.tokens) ++ [.endArray] := by
  rw [Value.tokens, itemTokens_eq]

/-- A text that begins outside of words separates. -/
theorem separates_cons {c : Char} (outside : isInWord c = false) (text : List Char) :
    Separates (c :: text) := fun _ => .cons outside

/-- A record on one line is read as the tokens of its object. -/
theorem closes_compact (record : Record) : Closes (compact record) (objectOf record).tokens := by
  rw [tokens_objectOf]
  exact .enclose (closes_mark rfl) (closes_mark rfl) (separates_cons rfl []) (closes_mark rfl)
    (separates_cons rfl []) record fun field _ => spells_field (closes_mark rfl) field

/-- A mark is read as its token with the blanks behind it. -/
theorem closes_mark_spaces {c : Char} {token : Token} (mark : Token.ofChar? c = some token)
    (spaces : List Char) (blank : ∀ c ∈ spaces, isSpace c = true) : Closes (c :: spaces) [token] :=
  (closes_mark mark).append (closes_spaces spaces blank)

/-- Items on lines of their own between brackets are read with the brackets around them. -/
theorem closes_block {ι : Type} {opening closing : Char} {start stop : Token}
    {indentation : List Char} {text : ι → List Char} {tokens : ι → List Token}
    (opens : Token.ofChar? opening = some start) (closes : Token.ofChar? closing = some stop)
    (blank : ∀ c ∈ indentation, isSpace c = true) (items : List ι)
    (spelled : ∀ item ∈ items, Spells (text item) (tokens item)) :
    Closes (block opening closing indentation (items.map text))
      (start :: [Token.comma].intercalate (items.map tokens) ++ [stop]) := by
  cases items with
  | nil => exact (closes_mark opens).append (closes_mark closes)
  | cons first others =>
    have inset : ∀ item ∈ first :: others,
        Spells (indentation ++ "  ".toList ++ text item) (tokens item) := by
      intro item mem
      have spaces := (closes_spaces _ blank).append (closes_spaces "  ".toList (by simp [isSpace]))
      exact spaces.append_spells (spelled item mem)
    have begins : Closes [opening, '\n'] [start] :=
      closes_mark_spaces opens ['\n'] (by simp [isSpace])
    have comma : Closes ",\n".toList [.comma] :=
      closes_mark_spaces rfl ['\n'] (by simp [isSpace])
    have ends : Closes ('\n' :: indentation ++ [closing]) [stop] :=
      (closes_spaces _ (List.forall_mem_cons.2 ⟨rfl, blank⟩)).append (closes_mark closes)
    have whole := begins.enclose comma (separates_cons rfl _) ends (separates_cons rfl _)
      (first :: others) inset
    rw [block, if_neg (by simp), List.map_map]
    rw [← List.append_assoc] at whole
    exact whole

/-- A record over several lines is read as the tokens of its object. -/
theorem closes_indented {indentation : List Char} (blank : ∀ c ∈ indentation, isSpace c = true)
    (record : Record) : Closes (indented indentation record) (objectOf record).tokens := by
  rw [tokens_objectOf]
  refine closes_block rfl rfl blank record fun field _ => ?_
  have colon : Closes ": ".toList [.colon] := closes_mark_spaces rfl [' '] (by simp [isSpace])
  have spelled := spells_field colon field
  rw [← List.append_assoc] at spelled
  exact spelled

/-- Records over several lines are read as the tokens of their array. -/
theorem closes_indentedArray (records : List Record) :
    Closes (indentedArray records) (Value.array (records.map objectOf)).tokens := by
  rw [tokens_array, List.map_map]
  exact closes_block rfl rfl (by simp) records
    fun record _ => (closes_indented (by simp [isSpace]) record).spells

/-- A text that is read as the tokens of a value is decoded to that value. -/
theorem decode?_of_closes {text : List Char} {value : Value} (closed : Closes text value.tokens) :
    decode? text = some value := by
  have tokens := closed []
  have read := readValue?_tokens value []
  rw [List.append_nil] at tokens read
  have none_ : tokens? [] = some [] := by rw [tokens?]
  rw [none_, Option.map_some, List.append_nil] at tokens
  rw [decode?, tokens, Option.bind_eq_bind, Option.bind_some, read]
  rfl

/-- A record on one line is decoded to its object. -/
theorem decode?_compact (record : Record) : decode? (compact record) = some (objectOf record) :=
  decode?_of_closes (closes_compact record)

/-- Records over several lines are decoded to the array of their objects, in order. -/
theorem decode?_indentedArray (records : List Record) :
    decode? (indentedArray records) = some (.array (records.map objectOf)) :=
  decode?_of_closes (closes_indentedArray records)

section Control

variable {control : Char} (isControl : control.toNat < 0x20)
include isControl

/-- No control character stands behind the backslash of an escape. -/
theorem unescaped?_of_isControl : unescaped? control = none := by
  unfold unescaped?
  split <;> first | rfl | exact absurd isControl (by decide)

/-- No character is escaped with a control character. -/
theorem control_not_mem_escape (c : Char) : control ∉ escape c := by
  have marks : control ∉ ['\\', 'u', '0'] := control_not_mem_of_visible isControl rfl
  simp only [List.mem_cons, List.not_mem_nil, or_false, not_or] at marks
  intro mem
  have form := escapedAs_escape c
  generalize escape c = escaped at mem form
  cases form with
  | @short letter meant =>
    obtain rfl : control = letter := by simpa [marks] using mem
    rw [unescaped?_of_isControl isControl] at meant
    contradiction
  | code _ =>
    have digits : ∀ n < 16, 0x20 ≤ (hexDigit n).toNat := by decide
    have sixteens := ne_of_isControl isControl (digits (c.toNat / 16) (by omega))
    have ones := ne_of_isControl isControl (digits (c.toNat % 16) (by omega))
    simp [sixteens, ones, marks] at mem
  | plain quote backslash visible =>
    exact ne_of_isControl isControl visible (List.mem_singleton.1 mem)

/-- A string holds no control character. -/
theorem control_not_mem_encodeText (value : List Char) : control ∉ encodeText value := by
  have quote : control ≠ '"' := ne_of_isControl isControl (by decide)
  simp [encodeText, quote, control_not_mem_escape isControl]

/-- A field value holds no control character. -/
theorem control_not_mem_encode (value : Scalar) : control ∉ value.encode := by
  cases value with
  | text value => exact control_not_mem_encodeText isControl value
  | number value => exact control_not_mem_decimal isControl value

/-- A field holds no control character unless one stands between its name and its value. -/
theorem control_not_mem_fields (colon : List Char) (between : control ∉ colon) (record : Record) :
    ∀ field ∈ record.map fun (name, value) => encodeText name ++ (colon ++ value.encode),
      control ∉ field := by
  intro field mem
  obtain ⟨⟨name, value⟩, -, rfl⟩ := List.mem_map.1 mem
  simp [between, control_not_mem_encodeText isControl, control_not_mem_encode isControl]

/-- A record on one line holds no control character. -/
theorem control_not_mem_compact (record : Record) : control ∉ compact record := by
  have colon : control ∉ [':'] := control_not_mem_of_visible isControl rfl
  have fields := control_not_mem_fields isControl _ colon record
  have between : control ∉ [','] := control_not_mem_of_visible isControl rfl
  have joined := Sequence.not_mem_intercalate between fields
  have opening : control ≠ '\x7b' := ne_of_isControl isControl (by decide)
  have closing : control ≠ '\x7d' := ne_of_isControl isControl (by decide)
  simpa [compact, opening, closing] using joined

/-- Records on lines of their own hold no control characters but line feeds. -/
theorem control_not_mem_compactLines (other : control ≠ '\n') (records : List Record) :
    control ∉ compactLines records := by
  refine Sequence.not_mem_intercalate (by simpa using other) fun line mem => ?_
  obtain ⟨record, -, rfl⟩ := List.mem_map.1 mem
  exact control_not_mem_compact isControl record

/-- Items over several lines hold no control characters but those in themselves and line feeds. -/
theorem control_not_mem_block (other : control ≠ '\n') {opening closing : Char}
    {indentation : List Char} {items : List (List Char)}
    (marks : 0x20 ≤ opening.toNat ∧ 0x20 ≤ closing.toNat) (blank : control ∉ indentation)
    (apart : ∀ item ∈ items, control ∉ item) :
    control ∉ block opening closing indentation items := by
  have space : control ≠ ' ' := ne_of_isControl isControl (by decide)
  have comma : control ≠ ',' := ne_of_isControl isControl (by decide)
  have opens := ne_of_isControl isControl marks.1
  have closes := ne_of_isControl isControl marks.2
  have lines : ∀ line ∈ items.map fun item => indentation ++ "  ".toList ++ item,
      control ∉ line := by
    intro line mem
    obtain ⟨item, listed, rfl⟩ := List.mem_map.1 mem
    simp [blank, space, apart item listed]
  have between : control ∉ ",\n".toList := by simp [comma, other]
  have joined := Sequence.not_mem_intercalate between lines
  unfold block
  split
  · simp [opens, closes]
  · simp only [List.cons_append, List.mem_cons, List.mem_append, List.not_mem_nil, or_false,
      not_or]
    exact ⟨opens, other, ⟨joined, other, blank⟩, closes⟩

/-- An array over several lines holds no control characters but line feeds. -/
theorem control_not_mem_indentedArray (other : control ≠ '\n') (records : List Record) :
    control ∉ indentedArray records := by
  have indentation : control ∉ "  ".toList := control_not_mem_of_visible isControl rfl
  have colon : control ∉ ": ".toList := control_not_mem_of_visible isControl rfl
  refine control_not_mem_block isControl other (by decide) List.not_mem_nil fun item mem => ?_
  obtain ⟨record, -, rfl⟩ := List.mem_map.1 mem
  refine control_not_mem_block isControl other (by decide) indentation ?_
  have fields := control_not_mem_fields isControl _ colon record
  simpa using fields

end Control

end AssetUsage.Json
