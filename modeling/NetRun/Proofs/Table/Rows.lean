import NetRun.Proofs.Decimal.Natural
import NetRun.Proofs.Traversal
import NetRun.Table.Render
import NetRun.Table.Row

/-!
# Tables that are written and read

The rows of a text are its lines of words, numbered from one.  Reading a rendered
table gives its rows back, as long as every field has a character and no blank.
Numbers are such fields.  A row that is moved one line down is read as before, and
refused one line further down.
-/

namespace NetRun.Table

/-- A field that is read as it is written. -/
structure IsField
    (field : String) :
    Prop where
  nonempty : field.toList ≠ []
  solid : ∀ c ∈ field.toList, Text.isBlank c = false

theorem isField_toString
    (n : Nat) :
    IsField (toString n) where
  nonempty := by
    rw [Decimal.toList_toString]
    exact Nat.toDigits_ne_nil
  solid := by
    intro c listed
    exact Text.isBlank_eq_false_of_isDigit (Decimal.isDigit_of_mem_toString listed)

/-- What is read as a number is a field, with or without a plus sign and leading zeros. -/
theorem isField_of_word64?
    {field : String}
    {word : UInt64}
    (reads : Decimal.word64? field = some word) :
    IsField field := by
  rcases Option.bind_eq_some_iff.1 reads with ⟨n, digits, -⟩
  rcases Decimal.digits_of_unsigned?_eq_some digits with ⟨nonempty, areDigits⟩
  refine ⟨nonempty, ?_⟩
  intro c listed
  rcases areDigits c listed with rfl | digit
  · rfl
  · exact Text.isBlank_eq_false_of_isDigit digit

/-- The words of a rendered row are its fields: every tab closes one. -/
theorem words_joinFields
    {fields : List String}
    (areFields : ∀ field ∈ fields, IsField field) :
    Text.words (joinFields (fields.map String.toList)) = fields.map String.toList := by
  induction fields with
  | nil => rfl
  | cons field fields induction =>
      rcases List.forall_mem_cons.1 areFields with ⟨⟨nonempty, solid⟩, restFields⟩
      cases fields with
      | nil =>
          have words := @Text.words_append field.toList nonempty solid [] rfl
          rwa [List.append_nil] at words
      | cons next fields =>
          change Text.words (field.toList ++ '\t' :: _) = field.toList :: _
          rw [Text.words_append nonempty solid rfl, Text.words_cons_blank rfl]
          exact congrArg _ (induction restFields)

theorem newline_not_mem_joinFields
    {fields : List String}
    (areFields : ∀ field ∈ fields, IsField field) :
    '\n' ∉ joinFields (fields.map String.toList) := by
  induction fields with
  | nil => exact List.not_mem_nil
  | cons field fields induction =>
      rcases List.forall_mem_cons.1 areFields with ⟨⟨-, solid⟩, restFields⟩
      have notHere : '\n' ∉ field.toList := by
        intro listed
        exact Bool.noConfusion (solid '\n' listed)
      cases fields with
      | nil => exact notHere
      | cons next fields =>
          intro listed
          rcases List.mem_append.1 listed with here | later
          · exact notHere here
          · rcases List.mem_cons.1 later with tab | later
            · exact absurd tab (by decide)
            · exact induction restFields later

/-- The lines of a rendered table are those of its rows. -/
theorem lines_render
    {table : List (List String)}
    (areFields : ∀ fields ∈ table, ∀ field ∈ fields, IsField field) :
    Text.lines (render table).toList =
      table.map fun fields => joinFields (fields.map String.toList) := by
  have inLine :
      ∀ line ∈ table.map fun fields => joinFields (fields.map String.toList), '\n' ∉ line := by
    intro line listed
    rcases List.mem_map.1 listed with ⟨fields, isRow, rfl⟩
    exact newline_not_mem_joinFields (areFields fields isRow)
  have split := Text.lines_flatMap_newline inLine
  rw [List.flatMap_map] at split
  rw [render, String.toList_ofList]
  exact split

/-- A text that a row begins begins with the first character of its key. -/
theorem head?_render
    {key : String}
    {fields : List String}
    {rows : List (List String)}
    (nonempty : key.toList ≠ []) :
    (render ((key :: fields) :: rows)).toList.head? = key.toList.head? := by
  rw [render, String.toList_ofList, List.flatMap_cons, renderRow, List.append_assoc]
  cases fields with
  | nil => exact List.head?_append_of_ne_nil _ nonempty
  | cons next fields =>
      rw [List.map_cons, List.map_cons, joinFields, List.append_assoc]
      exact List.head?_append_of_ne_nil _ nonempty

/-! ## Lines of words -/

/-- The words of every line of a text; a blank line has none. -/
def wordLines
    (text : String) :
    List (List String) :=
  (Text.lines text.toList).map fun line => (Text.words line).map String.ofList

/-- A written table has the words of its rows. -/
theorem wordLines_render
    {table : List (List String)}
    (areFields : ∀ fields ∈ table, ∀ field ∈ fields, IsField field) :
    wordLines (render table) = table := by
  have unchanged : String.ofList ∘ String.toList = id :=
    funext fun _ => String.ofList_toList
  rw [wordLines, lines_render areFields, List.map_map]
  conv_rhs => rw [← List.map_id table]
  apply List.map_congr_left
  intro fields listed
  change (Text.words (joinFields (fields.map String.toList))).map String.ofList = _
  rw [words_joinFields (areFields fields listed), List.map_map, unchanged, List.map_id, id]

/-- Lines as rows, the first of them behind `above` others. -/
def numbered
    (origin : String)
    (above : Nat)
    (lines : List (List String)) :
    List Row :=
  (lines.zipIdx above).map fun (words, index) => ⟨origin, index + 1, words⟩

@[simp]
theorem numbered_nil
    (origin : String)
    (above : Nat) :
    numbered origin above [] = [] :=
  rfl

@[simp]
theorem numbered_cons
    (origin : String)
    (above : Nat)
    (words : List String)
    (lines : List (List String)) :
    numbered origin above (words :: lines) =
      ⟨origin, above + 1, words⟩ :: numbered origin (above + 1) lines :=
  rfl

/-- The rows of a text are its lines, numbered from one. -/
theorem rows_eq_numbered
    (origin text : String) :
    rows origin text = numbered origin 0 (wordLines text) := by
  rw [rows, numbered, wordLines, List.zipIdx_map, List.map_map]
  rfl

/-- The rows of a rendered table are its rows, numbered from one. -/
theorem rows_render
    (origin : String)
    {table : List (List String)}
    (areFields : ∀ fields ∈ table, ∀ field ∈ fields, IsField field) :
    rows origin (render table) =
      table.zipIdx.map fun (fields, index) => ⟨origin, index + 1, fields⟩ := by
  rw [rows_eq_numbered, wordLines_render areFields, numbered]

/-! ## Fields of a row -/

namespace Row

/-- A field is read exactly if it is there and stands for a number. -/
theorem number_eq_ok_iff
    {α : Type}
    {read : String → Option α}
    {row : Row}
    {index : Nat}
    {field : String}
    {value : α} :
    row.number read index field = .ok value ↔
      ∃ word, row.words[index]? = some word ∧ read word = some value := by
  rw [number, bind_eq_ok_iff, text]
  cases row.words[index]? with
  | none => simp
  | some word => cases reads : read word <;> simp [reads]

/-- A field that can be read gives the number that it stands for. -/
theorem number_eq_ok
    {α : Type}
    {read : String → Option α}
    {row : Row}
    {index : Nat}
    {word : String}
    {value : α}
    (written : row.words[index]? = some word)
    (reads : read word = some value)
    (field : String) :
    row.number read index field = .ok value :=
  number_eq_ok_iff.2 ⟨word, written, reads⟩

theorem number_of_missing
    {α : Type}
    {row : Row}
    {index : Nat}
    (missing : row.words[index]? = none)
    (read : String → Option α)
    (field : String) :
    row.number read index field = .error (.missingField row.origin row.line field) := by
  rw [number, bind_eq_error_iff, text, missing]
  exact Or.inl rfl

theorem number_of_refused
    {α : Type}
    {read : String → Option α}
    {row : Row}
    {index : Nat}
    {word : String}
    (written : row.words[index]? = some word)
    (refuses : read word = none)
    (field : String) :
    row.number read index field = .error (.invalidNumber row.origin row.line field word) := by
  rw [number, bind_eq_error_iff, text, written]
  refine Or.inr ⟨word, rfl, ?_⟩
  rw [refuses]

theorem word32_eq_ok
    {row : Row}
    {index : Nat}
    {word : UInt32}
    (written : row.words[index]? = some (toString word))
    (field : String) :
    row.word32 index field = .ok word :=
  number_eq_ok written (Decimal.word32?_toString word) field

theorem word64_eq_ok
    {row : Row}
    {index : Nat}
    {word : UInt64}
    (written : row.words[index]? = some (toString word))
    (field : String) :
    row.word64 index field = .ok word :=
  number_eq_ok written (Decimal.word64?_toString word) field

end Row

/-! ## Rows one line further down -/

/-- The same refusal, one line further down. -/
def ReadError.lowered :
    ReadError → ReadError
  | .missingField origin line field => .missingField origin (line + 1) field
  | .invalidNumber origin line field value => .invalidNumber origin (line + 1) field value
  | .nodeOutOfRange origin line node nodes => .nodeOutOfRange origin (line + 1) node nodes
  | .inaccessible path fault => .inaccessible path fault
  | .empty origin expected => .empty origin expected

/-- The same row, one line further down. -/
def Row.lowered
    (row : Row) :
    Row :=
  { row with line := row.line + 1 }

theorem numbered_succ
    (origin : String)
    (above : Nat)
    (lines : List (List String)) :
    numbered origin (above + 1) lines = (numbered origin above lines).map Row.lowered := by
  induction lines generalizing above with
  | nil => rfl
  | cons words lines induction =>
      rw [numbered_cons, numbered_cons, List.map_cons, induction]
      rfl

/-- A field further down is read as before, or refused further down. -/
theorem Row.number_lowered
    {α : Type}
    (read : String → Option α)
    (row : Row)
    (index : Nat)
    (field : String) :
    row.lowered.number read index field = (row.number read index field).mapError .lowered := by
  cases stands : row.words[index]? with
  | none =>
      have lacks : row.lowered.words[index]? = none := stands
      rw [number_of_missing stands, number_of_missing lacks]
      rfl
  | some word =>
      have written : row.lowered.words[index]? = some word := stands
      cases reads : read word with
      | none =>
          rw [number_of_refused stands reads, number_of_refused written reads]
          rfl
      | some value =>
          rw [number_eq_ok stands reads, number_eq_ok written reads]
          rfl

end NetRun.Table
