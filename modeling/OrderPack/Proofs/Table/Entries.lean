import OrderPack.Proofs.Table.Nesting
import OrderPack.Proofs.Text.Blank

/-! The entries of a text that describes a table. A closed text is a row of pieces with commas
between them, each of which is closed by itself and has no comma outside of its brackets and
quotes. There is one such row, and the scan finds it. What a piece states is told by its margins
and its first separator, and what a row of pieces decides for a column by the last of them that
states the name of the column. -/
namespace OrderPack.Table

/-- A text that no comma divides. All its brackets and quotes are closed, and none of its commas
is outside of them: what stands before a comma is not closed. -/
structure Piece (text : List Char) : Prop where
  balanced : Balanced text
  whole : ∀ before behind, text = before ++ ',' :: behind → ¬Balanced before

/-- The text of a row of pieces, with commas between them. -/
def joined (row : List (List Char)) : List Char := [','].intercalate row

/-- The pieces of a text, between its commas. -/
structure Divides (text : List Char) (row : List (List Char)) : Prop where
  some : row ≠ []
  joined : joined row = text
  undivided : ∀ piece ∈ row, Piece piece

@[simp] theorem joined_singleton (piece : List Char) : joined [piece] = piece :=
  List.intercalate_singleton

@[simp] theorem joined_cons_cons (piece next : List Char) (row : List (List Char)) :
    joined (piece :: next :: row) = piece ++ ',' :: joined (next :: row) := by
  simp [joined]

namespace Nesting

/-- A comma changes nothing of what surrounds it. -/
theorem after?_comma (nesting : Nesting) : nesting.after? ',' = some nesting := by
  cases nesting with
  | mk depth quoted => cases quoted <;> rfl

end Nesting

theorem pieces_cons {nesting next : Nesting} {c : Char} {rest : List Char}
    (inner : ¬(c = ',' ∧ nesting = .outside)) (after : nesting.after? c = some next) :
    pieces nesting (c :: rest) =
      (c :: (pieces next rest).1, (pieces next rest).2) := by
  simp [pieces, inner, after]

theorem pieces_comma (rest : List Char) :
    pieces .outside (',' :: rest) =
      ([], (pieces .outside rest).1 :: (pieces .outside rest).2) := by
  simp [pieces, Nesting.after?_comma]

/-- A text without a comma outside of brackets and quotes is taken over up to its end, if it ends
outside. -/
theorem pieces_append {nesting : Nesting} {front : List Char} (back : List Char)
    (ends : nesting.run front = some .outside)
    (whole : ∀ before behind, front = before ++ ',' :: behind →
      nesting.run before ≠ some .outside) :
    pieces nesting (front ++ back) =
      (front ++ (pieces .outside back).1, (pieces .outside back).2) := by
  induction front generalizing nesting with
  | nil =>
    cases ends
    rfl
  | cons c rest ih =>
    rw [Nesting.run] at ends
    cases after : nesting.after? c with
    | none => simp [after] at ends
    | some next =>
      simp only [after, Option.bind_some] at ends
      have inner : ¬(c = ',' ∧ nesting = .outside) := by
        rintro ⟨rfl, rfl⟩
        exact whole [] rest rfl rfl
      have later := ih ends fun before behind same reached => by
        refine whole (c :: before) behind (by rw [same, List.cons_append]) ?_
        simp [Nesting.run, after, reached]
      simp [pieces_cons inner after, later]

theorem Piece.pieces_append {piece : List Char} (one : Piece piece) (back : List Char) :
    pieces .outside (piece ++ back) =
      (piece ++ (pieces .outside back).1, (pieces .outside back).2) :=
  Table.pieces_append back ((Nesting.run_outside_iff piece).mpr one.balanced)
    fun before behind same reached =>
      one.whole before behind same ((Nesting.run_outside_iff before).mp reached)

/-- The scan of a row of pieces finds them. -/
theorem pieces_joined (piece : List Char) (row : List (List Char))
    (all : ∀ one ∈ piece :: row, Piece one) :
    pieces .outside (joined (piece :: row)) = (piece, row) := by
  induction row generalizing piece with
  | nil =>
    have last := (all piece List.mem_cons_self).pieces_append []
    simpa [pieces] using last
  | cons next row ih =>
    have later := ih next fun one found => all one (List.mem_cons_of_mem _ found)
    rw [joined_cons_cons, (all piece List.mem_cons_self).pieces_append, pieces_comma, later,
      List.append_nil]

/-- What the scan finds from some place of a closed text on is the text, and its pieces are no
longer divided. -/
theorem pieces_divide (nesting : Nesting) (text : List Char)
    (ends : nesting.run text = some .outside) :
    joined ((pieces nesting text).1 :: (pieces nesting text).2) = text ∧
      nesting.run (pieces nesting text).1 = some .outside ∧
      (∀ before behind, (pieces nesting text).1 = before ++ ',' :: behind →
        nesting.run before ≠ some .outside) ∧
      ∀ piece ∈ (pieces nesting text).2, Piece piece := by
  induction text generalizing nesting with
  | nil => exact ⟨rfl, ends, by simp [pieces], by simp [pieces]⟩
  | cons c rest ih =>
    rw [Nesting.run] at ends
    cases after : nesting.after? c with
    | none => simp [after] at ends
    | some next =>
      simp only [after, Option.bind_some] at ends
      obtain ⟨same, closed, whole, others⟩ := ih next ends
      by_cases divides : c = ',' ∧ nesting = .outside
      · obtain ⟨rfl, rfl⟩ := divides
        cases after.symm.trans (Nesting.after?_comma .outside)
        have first : Piece (pieces .outside rest).1 := by
          refine ⟨(Nesting.run_outside_iff _).mp closed, ?_⟩
          intro before behind same balanced
          exact whole before behind same ((Nesting.run_outside_iff before).mpr balanced)
        rw [pieces_comma]
        refine ⟨?_, rfl, by simp, List.forall_mem_cons.mpr ⟨first, others⟩⟩
        rw [joined_cons_cons, same, List.nil_append]
      · rw [pieces_cons divides after]
        refine ⟨?_, ?_, ?_, others⟩
        · cases behind : (pieces next rest).2 with
          | nil => simpa [behind] using same
          | cons piece row => simpa [behind] using same
        · simpa [Nesting.run, after] using closed
        · intro before behind divided
          cases before with
          | nil =>
            obtain ⟨rfl, _⟩ := List.cons.inj divided
            intro reached
            cases reached
            exact divides ⟨rfl, rfl⟩
          | cons d before =>
            obtain ⟨rfl, later⟩ := List.cons.inj divided
            simpa [Nesting.run, after] using whole before behind later

/-- A closed text divides into the pieces that the scan finds. -/
theorem Balanced.divides {text : List Char} (balanced : Balanced text) :
    Divides text ((pieces .outside text).1 :: (pieces .outside text).2) := by
  obtain ⟨same, closed, whole, others⟩ :=
    pieces_divide .outside text ((Nesting.run_outside_iff text).mpr balanced)
  refine ⟨List.cons_ne_nil _ _, same, List.forall_mem_cons.mpr ⟨⟨?_, ?_⟩, others⟩⟩
  · exact (Nesting.run_outside_iff _).mp closed
  · intro before behind divided inside
    exact whole before behind divided ((Nesting.run_outside_iff before).mpr inside)

/-- There is one way to divide a text. -/
theorem Divides.eq {text : List Char} {row : List (List Char)} (divides : Divides text row) :
    row = (pieces .outside text).1 :: (pieces .outside text).2 := by
  obtain ⟨some, rfl, all⟩ := divides
  cases row with
  | nil => exact absurd rfl some
  | cons piece row => rw [pieces_joined piece row all]

/-- Pieces with commas between them are a closed text. -/
theorem balanced_joined {row : List (List Char)} (all : ∀ piece ∈ row, Piece piece) :
    Balanced (joined row) := by
  refine (Nesting.run_outside_iff _).mp ?_
  induction row with
  | nil => rfl
  | cons piece row ih =>
    obtain ⟨one, others⟩ := List.forall_mem_cons.mp all
    have closed := (Nesting.run_outside_iff piece).mpr one.balanced
    cases row with
    | nil => simpa using closed
    | cons next row =>
      have later := ih others
      simp [Nesting.run_append, closed, Nesting.run, Nesting.after?_comma, later]

/-- The characters that end a name. -/
def Separates (c : Char) : Prop := c = '=' ∨ c = ':'

/-- What a piece states, blank margins aside. A name without a separator states that it is true.
Otherwise the name is in front of the first separator and the value behind it, and the quotes
around the value are left out. -/
inductive States (piece : List Char) (name value : String) : Prop where
  | bare (named : Text.Stripped Text.isBlank piece name.toList) (some : name ≠ "")
      (whole : ∀ c ∈ name.toList, ¬Separates c) (isTrue : value = "true")
  | valued {front back inner : List Char} {separator : Char} (separates : Separates separator)
      (stands : Text.Stripped Text.isBlank piece (front ++ separator :: back))
      (first : ∀ c ∈ front, ¬Separates c)
      (named : Text.Stripped Text.isBlank front name.toList)
      (valued : Text.Stripped Text.isBlank back inner)
      (bare : Text.Stripped (· == '"') inner value.toList)

section Entry
variable {piece front back : List Char} {separator : Char}

/-- A text has no separator, or it has a first one. -/
theorem separated (text : List Char) :
    (∀ c ∈ text, ¬Separates c) ∨
      ∃ front separator back, text = front ++ separator :: back ∧ Separates separator ∧
        ∀ c ∈ front, ¬Separates c := by
  induction text with
  | nil => exact .inl nofun
  | cons c rest ih =>
    by_cases here : Separates c
    · exact .inr ⟨[], c, rest, rfl, here, nofun⟩
    · rcases ih with none | ⟨front, separator, back, rfl, separates, first⟩
      · exact .inl (List.forall_mem_cons.mpr ⟨here, none⟩)
      · exact .inr ⟨c :: front, separator, back, rfl, separates,
          List.forall_mem_cons.mpr ⟨here, first⟩⟩

/-- A text is cut at the first character that is not kept. -/
theorem cut_at (keep : Char → Bool) (back : List Char) (kept : ∀ c ∈ front, keep c = true)
    (stop : keep separator = false) :
    (front ++ separator :: back).takeWhile keep = front ∧
      (front ++ separator :: back).dropWhile keep = separator :: back := by
  rw [List.takeWhile_append_of_pos kept, List.dropWhile_append_of_pos kept]
  simp [stop]

theorem entry_of_blank (blank : Text.trim piece = []) : entry? piece = none := by
  simp [blank, entry?]

theorem entry_of_bare (some : Text.trim piece ≠ []) (whole : ∀ c ∈ Text.trim piece, ¬Separates c) :
    entry? piece = Option.some (String.ofList (Text.trim piece), "true") := by
  have past : (Text.trim piece).dropWhile (fun c => !(c == '=' || c == ':')) = [] :=
    List.dropWhile_eq_nil_iff.mpr fun c found => by simpa [Separates] using whole c found
  have begun : (Text.trim piece).isEmpty = false := by simpa using some
  simp only [begun, entry?, Bool.false_eq_true, if_false, past]

theorem entry_of_valued (stands : Text.trim piece = front ++ separator :: back)
    (separates : Separates separator) (first : ∀ c ∈ front, ¬Separates c) :
    entry? piece = some (String.ofList (Text.trim front),
      String.ofList (Text.strip (· == '"') (Text.trim back))) := by
  have before : ∀ c ∈ front, (!(c == '=' || c == ':')) = true :=
    fun c found => by simpa [Separates] using first c found
  have stop : (!(separator == '=' || separator == ':')) = false := by
    rcases separates with rfl | rfl <;> rfl
  obtain ⟨kept, past⟩ := cut_at (fun c => !(c == '=' || c == ':')) back before stop
  have begun : (front ++ separator :: back).isEmpty = false := by simp
  simp only [stands, entry?, begun, Bool.false_eq_true, if_false, past, kept]

/-- A piece is read as what it states, and as nothing if it is blank. -/
theorem entry_eq_some_iff {name value : String} :
    entry? piece = some (name, value) ↔ States piece name value := by
  constructor
  · intro read
    by_cases blank : Text.trim piece = []
    · simp [entry_of_blank blank] at read
    · rcases separated (Text.trim piece) with
        whole | ⟨front, separator, back, stands, separates, first⟩
      · rw [entry_of_bare blank whole] at read
        cases read
        refine .bare (Text.strip_eq_iff.mp (by simp [Text.trim])) ?_ (by simpa using whole) rfl
        simpa [← String.toList_eq_nil_iff] using blank
      · rw [entry_of_valued stands separates first] at read
        cases read
        exact .valued separates (Text.strip_eq_iff.mp stands) first
          (Text.strip_eq_iff.mp (by simp [Text.trim])) (Text.strip_eq_iff.mp rfl)
          (Text.strip_eq_iff.mp (by simp [Text.trim]))
  · intro states
    cases states with
    | bare named some whole isTrue =>
      have stands : Text.trim piece = name.toList := Text.strip_eq_iff.mpr named
      have begun : Text.trim piece ≠ [] := by simpa [stands] using some
      rw [entry_of_bare begun (by simpa [stands] using whole), stands, isTrue]
      simp
    | valued separates stands first named valued bare =>
      have inside : Text.trim _ = name.toList := Text.strip_eq_iff.mpr named
      have held : Text.trim _ = _ := Text.strip_eq_iff.mpr valued
      rw [entry_of_valued (Text.strip_eq_iff.mpr stands) separates first, inside, held,
        Text.strip_eq_iff.mpr bare]
      simp

end Entry

/-- The last piece of a row that states the name of a column decides its descriptor. Where no
piece does it is that of raw bytes. -/
inductive Decides (row : List (List Char)) (column : Column) (format : String) : Prop where
  | last {front back : List (List Char)} {piece : List Char} (stands : row = front ++ piece :: back)
      (states : States piece column.name format)
      (others : ∀ later ∈ back, ∀ value, ¬States later column.name value)
  | default (none : ∀ piece ∈ row, ∀ value, ¬States piece column.name value) (raw : format = "u")

theorem columnFormat_nil (column : Column) : columnFormat [] column = "u" := rfl

theorem columnFormat_concat (earlier : List (String × String)) (column : Column)
    (format : String) : columnFormat (earlier ++ [(column.name, format)]) column = format := by
  simp [columnFormat]

/-- Entries of other names decide nothing, wherever they stand. -/
theorem columnFormat_filter (entries : List (String × String)) (column : Column) :
    columnFormat (entries.filter (·.1 == column.name)) column = columnFormat entries column := by
  simp only [columnFormat, ← List.filter_reverse, List.find?_filter, and_self, Bool.decide_eq_true]

section Decided
variable {row : List (List Char)} {column : Column}

/-- Pieces that do not state the name of a column have no entries for it. -/
theorem filter_unnamed (none : ∀ piece ∈ row, ∀ value, ¬States piece column.name value) :
    (row.filterMap entry?).filter (·.1 == column.name) = [] := by
  apply List.filter_eq_nil_iff.mpr
  rintro ⟨name, value⟩ found same
  obtain ⟨piece, stands, read⟩ := List.mem_filterMap.mp found
  have named : name = column.name := by simpa using same
  rw [named] at read
  exact none piece stands value (entry_eq_some_iff.mp read)

/-- A piece that does not state the name of a column changes nothing for it. -/
theorem columnFormat_insert {extra : List Char} (front back : List (List Char))
    (other : ∀ value, ¬States extra column.name value) :
    columnFormat ((front ++ extra :: back).filterMap entry?) column =
      columnFormat ((front ++ back).filterMap entry?) column := by
  have none : ([extra].filterMap entry?).filter (·.1 == column.name) = [] :=
    filter_unnamed (by simpa using other)
  have named : ((front ++ ([extra] ++ back)).filterMap entry?).filter (·.1 == column.name) =
      ((front ++ back).filterMap entry?).filter (·.1 == column.name) := by
    simp only [List.filterMap_append, List.filter_append, none, List.nil_append]
  rw [← columnFormat_filter, ← List.singleton_append, named, columnFormat_filter]

/-- What a row decides is what its entries say. -/
theorem Decides.eq {format : String} (decides : Decides row column format) :
    columnFormat (row.filterMap entry?) column = format := by
  rw [← columnFormat_filter]
  cases decides with
  | last stands states others =>
    rw [stands, List.filterMap_append, List.filterMap_cons_some (entry_eq_some_iff.mpr states)]
    simp only [List.filter_append, List.filter_cons, beq_self_eq_true, if_true,
      filter_unnamed others]
    exact columnFormat_concat _ _ _
  | default none raw => rw [filter_unnamed none, raw, columnFormat_nil]

/-- A piece behind a row decides for itself, or leaves the decision to the row. -/
theorem decides_columnFormat (row : List (List Char)) (column : Column) :
    Decides row column (columnFormat (row.filterMap entry?) column) := by
  induction row using List.reverseRecOn with
  | nil => exact .default nofun rfl
  | append_singleton row piece ih =>
    by_cases states : ∃ value, States piece column.name value
    · obtain ⟨value, states⟩ := states
      have decides : Decides (row ++ [piece]) column value := .last rfl states nofun
      rwa [decides.eq]
    · have other : ∀ value, ¬States piece column.name value :=
        fun value stated => states ⟨value, stated⟩
      have same := columnFormat_insert row [] other
      rw [List.append_nil] at same
      rw [same]
      cases ih with
      | @last front back one stands stated others =>
        have stands : row ++ [piece] = front ++ one :: (back ++ [piece]) := by
          rw [stands, List.append_assoc, List.cons_append]
        refine .last stands stated ?_
        exact List.forall_mem_append.mpr ⟨others, by simpa using other⟩
      | default none raw =>
        exact .default (List.forall_mem_append.mpr ⟨none, by simpa using other⟩) raw

end Decided

/-- The entries of a text are those of its pieces. -/
theorem entries_of_divides {config : String} {row : List (List Char)}
    (divides : Divides config.toList row) : entries config = row.filterMap entry? := by
  rw [entries, divides.eq]

theorem entries_joined {row : List (List Char)} (all : ∀ piece ∈ row, Piece piece) :
    entries (String.ofList (joined row)) = row.filterMap entry? := by
  cases row with
  | nil => rfl
  | cons piece row =>
    apply entries_of_divides
    exact ⟨List.cons_ne_nil _ _, by simp, all⟩

end OrderPack.Table
