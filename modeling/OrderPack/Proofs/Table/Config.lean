import OrderPack.Proofs.Descriptor.Alphabet
import OrderPack.Proofs.Table.Entries

/-! The table that a text describes. A closed text describes the table of the two descriptors
that its pieces decide, and any other text describes none. What stands in the brackets or quotes
of a piece is a part of that piece, so a piece of another name says nothing about the columns,
whatever it holds. A table can be written down as two pieces and is found again among others. -/
namespace OrderPack.Table

/-- A piece that states the name of neither column. -/
def NamesNeither (piece : List Char) : Prop :=
  ∀ (column : Column) (value : String), ¬States piece column.name value

/-- The text of a closed row of pieces describes what the row decides. -/
theorem ofConfig_joined {row : List (List Char)} (all : ∀ piece ∈ row, Piece piece) :
    ofConfig (String.ofList (joined row)) =
      ofFormats (columnFormat (row.filterMap entry?) .key)
        (columnFormat (row.filterMap entry?) .value) := by
  have balanced : Balanced (String.ofList (joined row)).toList := by
    simpa using balanced_joined all
  rw [ofConfig_of_balanced balanced, entries_joined all]

/-- The characters that a scan or the trimming of a value look for. -/
def marks : List Char := ['"', ',', '(', '[', ')', ']']

/-- A text of other characters than these is one piece. -/
theorem piece_of_plain {text : List Char} (plain : ∀ c ∈ text, c ∉ marks) : Piece text := by
  have run : ∀ nesting : Nesting, nesting.run text = some nesting := by
    induction text with
    | nil => exact fun _ => rfl
    | cons c rest ih =>
      obtain ⟨here, later⟩ := List.forall_mem_cons.mp plain
      intro nesting
      have stays : nesting.after? c = some nesting := by
        simp only [marks, List.mem_cons, List.not_mem_nil, or_false, not_or] at here
        simp [Nesting.after?, here]
      rw [Nesting.run, stays]
      exact ih later nesting
  refine ⟨(Nesting.run_outside_iff text).mp (run .outside), ?_⟩
  rintro before behind rfl
  exact absurd (by decide) (plain ',' (by simp))

/-- The piece that states the descriptor of a column. -/
def rendered (table : Table) (column : Column) : List Char :=
  (column.name ++ "=" ++ table.format column).toList

theorem Column.name_plain (column : Column) :
    ∀ c ∈ column.name.toList, c ∉ marks ∧ Text.isBlank c = false ∧ ¬(c = '=' ∨ c = ':') := by
  cases column <;> exact List.all_iff_forall_prop.mp (by decide)

theorem alphabet_plain :
    ∀ c ∈ Descriptor.alphabet, c ∉ marks ∧ Text.isBlank c = false ∧ (c == '"') = false :=
  List.all_iff_forall_prop.mp (by decide)

/-- The descriptor that is kept for a column is not empty, so it is kept as it is again. -/
theorem checkFormat_again {column : Column} {given kept : String}
    (good : checkFormat column given = .ok kept) : checkFormat column kept = .ok kept := by
  obtain ⟨fields, known⟩ := fields_of_checkFormat good
  have some : kept ≠ "" := by
    rw [checkFormat_eq] at good
    simp only at good
    split at good
    · cases good
      split
      · decide
      · rename_i given
        simpa using given
    · cases good
  have begun : kept.isEmpty = false := by simpa using some
  rw [checkFormat_eq]
  simp only [begun, Bool.false_eq_true, if_false, known]

theorem ofFormats_again {key value : String} {table : Table}
    (made : ofFormats key value = .ok table) :
    ofFormats table.keyFormat table.valueFormat = .ok table := by
  rw [ofFormats] at made
  cases keyGood : checkFormat .key key with
  | error error =>
    rw [keyGood] at made
    cases made
  | ok keyKept =>
    cases valueGood : checkFormat .value value with
    | error error =>
      rw [keyGood, valueGood] at made
      cases made
    | ok valueKept =>
      rw [keyGood, valueGood] at made
      cases made
      rw [ofFormats, checkFormat_again keyGood, checkFormat_again valueGood]
      rfl

/-- The descriptors of a table make the same table again. -/
theorem Made.again {table : Table} (made : Made table) :
    Table.ofFormats table.keyFormat table.valueFormat = .ok table := by
  cases made with
  | default => with_unfolding_all rfl
  | ofFormats made => exact ofFormats_again made
  | ofConfig made =>
    obtain ⟨_, _, made⟩ := ofFormats_of_ofConfig made
    exact ofFormats_again made

section Rendered
variable {table : Table}

theorem Made.format_plain (made : Made table) (column : Column) :
    ∀ c ∈ (table.format column).toList,
      c ∉ marks ∧ Text.isBlank c = false ∧ (c == '"') = false := by
  obtain ⟨fields, known⟩ := made.fields column
  exact fun c found => alphabet_plain c (Descriptor.mem_alphabet known c found)

theorem rendered_eq (table : Table) (column : Column) :
    rendered table column = column.name.toList ++ '=' :: (table.format column).toList := by
  simp [rendered]

/-- What is written down for a column is one piece. -/
theorem Made.piece_rendered (made : Made table) (column : Column) :
    Piece (rendered table column) := by
  apply piece_of_plain
  rw [rendered_eq]
  refine List.forall_mem_append.mpr ⟨fun c found => (column.name_plain c found).1, ?_⟩
  exact List.forall_mem_cons.mpr ⟨by decide, fun c found => (made.format_plain column c found).1⟩

/-- It states the descriptor, since nothing of it is trimmed. -/
theorem Made.states_rendered (made : Made table) (column : Column) :
    States (rendered table column) column.name (table.format column) := by
  have name := column.name_plain
  have format := made.format_plain column
  have separates : Separates '=' := .inl rfl
  refine .valued separates ?_ (fun c found => (name c found).2.2)
    (Text.stripped_of_none fun c found => (name c found).2.1)
    (Text.stripped_of_none fun c found => (format c found).2.1)
    (Text.stripped_of_none fun c found => (format c found).2.2)
  rw [rendered_eq]
  apply Text.stripped_of_none
  refine List.forall_mem_append.mpr ⟨fun c found => (name c found).2.1, ?_⟩
  exact List.forall_mem_cons.mpr ⟨by decide, fun c found => (format c found).2.1⟩

/-- A piece states one name. -/
theorem States.name_unique {piece : List Char} {name other value given : String}
    (states : States piece name value) (again : States piece other given) : name = other := by
  have read := (entry_eq_some_iff.mpr states).symm.trans (entry_eq_some_iff.mpr again)
  cases read
  rfl

/-- A table that is written down among pieces of other names is found again. -/
theorem Made.found_again (made : Made table) {front middle back : List (List Char)}
    (others : ∀ piece ∈ front ++ middle ++ back, Piece piece ∧ NamesNeither piece) :
    Table.ofConfig (String.ofList (joined
      (front ++ rendered table .key :: (middle ++ rendered table .value :: back)))) =
        .ok table := by
  obtain ⟨around, behind⟩ := List.forall_mem_append.mp others
  obtain ⟨before, between⟩ := List.forall_mem_append.mp around
  have all : ∀ piece ∈ front ++ rendered table .key :: (middle ++ rendered table .value :: back),
      Piece piece := by
    refine List.forall_mem_append.mpr ⟨fun piece found => (before piece found).1, ?_⟩
    refine List.forall_mem_cons.mpr ⟨made.piece_rendered .key, ?_⟩
    refine List.forall_mem_append.mpr ⟨fun piece found => (between piece found).1, ?_⟩
    exact List.forall_mem_cons.mpr
      ⟨made.piece_rendered .value, fun piece found => (behind piece found).1⟩
  have key : Decides (front ++ rendered table .key :: (middle ++ rendered table .value :: back))
      .key (table.format .key) := by
    refine .last rfl (made.states_rendered .key) ?_
    refine List.forall_mem_append.mpr ⟨fun piece found => (between piece found).2 .key, ?_⟩
    refine List.forall_mem_cons.mpr ⟨?_, fun piece found => (behind piece found).2 .key⟩
    intro value states
    exact absurd (states.name_unique (made.states_rendered .value)) (by decide)
  have value : Decides (front ++ rendered table .key :: (middle ++ rendered table .value :: back))
      .value (table.format .value) := by
    have stands : front ++ rendered table .key :: (middle ++ rendered table .value :: back) =
        (front ++ rendered table .key :: middle) ++ rendered table .value :: back := by simp
    refine .last stands (made.states_rendered .value) ?_
    exact fun piece found => (behind piece found).2 .value
  rw [ofConfig_joined all, key.eq, value.eq]
  exact made.again

end Rendered

/-- A closed text describes the table of the descriptors that its pieces decide. There is one way
to divide it, at the commas outside of brackets and quotes, and one descriptor that the pieces
decide for each column. Any other text is malformed. So a piece of another name changes nothing
wherever it stands, and a table that is written down between such pieces is found again. -/
theorem config_decided :
    (∀ config : String, Balanced config.toList →
      (∃ row key value, Divides config.toList row ∧ Decides row .key key ∧
        Decides row .value value) ∧
      ∀ row key value, Divides config.toList row → Decides row .key key →
        Decides row .value value → ofConfig config = ofFormats key value) ∧
    (∀ config : String, ¬Balanced config.toList →
      ∃ error, ofConfig config = .error error ∧ error.report.kind = .invalidFormat) ∧
    (∀ front back : List (List Char), ∀ extra : List Char,
      (∀ piece ∈ front ++ extra :: back, Piece piece) → NamesNeither extra →
      ofConfig (String.ofList (joined (front ++ extra :: back))) =
        ofConfig (String.ofList (joined (front ++ back)))) ∧
    ∀ table, Made table → ∀ front middle back : List (List Char),
      (∀ piece ∈ front ++ middle ++ back, Piece piece ∧ NamesNeither piece) →
      ofConfig (String.ofList (joined
        (front ++ rendered table .key :: (middle ++ rendered table .value :: back)))) =
          .ok table := by
  refine ⟨?_, fun config => ofConfig_of_not_balanced, ?_, ?_⟩
  · intro config balanced
    refine ⟨⟨_, _, _, balanced.divides, decides_columnFormat _ _, decides_columnFormat _ _⟩, ?_⟩
    intro row key value divides keyDecided valueDecided
    rw [ofConfig_of_balanced balanced, entries_of_divides divides, keyDecided.eq, valueDecided.eq]
  · intro front back extra all neither
    obtain ⟨before, behind⟩ := List.forall_mem_append.mp all
    have rest : ∀ piece ∈ front ++ back, Piece piece :=
      List.forall_mem_append.mpr ⟨before, (List.forall_mem_cons.mp behind).2⟩
    rw [ofConfig_joined all, ofConfig_joined rest, columnFormat_insert _ _ (neither .key),
      columnFormat_insert _ _ (neither .value)]
  · intro table made front middle back others
    exact made.found_again others

/-- Of the pieces that name a column the last one decides, and what is within brackets or quotes
does not name any. -/
example : ofConfig "key_format=S,key_format : r" = .ok ⟨"r", "u"⟩ ∧
    ofConfig "a=(b,key_format=S)" = .ok default ∧
    ofConfig "a=\",key_format=S\"" = .ok default := by
  refine ⟨?_, ?_, ?_⟩ <;> with_unfolding_all rfl

end OrderPack.Table
