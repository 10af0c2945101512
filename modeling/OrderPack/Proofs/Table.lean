import OrderPack.Descriptor.Cursor
import OrderPack.Proofs.Record.Validity
import OrderPack.Table

/-! The descriptors of a table are looked at once, when the table is made, by reading out
all their fields. Those who use a descriptor later walk through it only as far as they come.
Both agree on which descriptors are valid, so that a table needs no second look. -/
namespace OrderPack

/-- An empty descriptor and the one that it stands for are one. -/
theorem Layout.ofText_default (text : String) :
    ofText (if text.isEmpty then defaultText else text) = ofText text := by
  cases empty : text.isEmpty with
  | true =>
    have default : defaultText.isEmpty = false := by with_unfolding_all rfl
    rw [if_pos rfl, ofText, ofText, empty, default, if_neg Bool.false_ne_true, if_pos rfl]
  | false => rfl

theorem Descriptor.fields_default (text : String) :
    fields (if text.isEmpty then Layout.defaultText else text) = fields text := by
  rw [fields, fields, Layout.ofText_default]

theorem Descriptor.fields_defaultText :
    fields Layout.defaultText = .ok [⟨.raw, 1, false⟩] := by with_unfolding_all rfl

/-- Asking a cursor for all fields is reading them out of the descriptor. -/
theorem Cursor.fields_ofText (text : String) :
    (ofText text).bind Cursor.fields = Descriptor.fields text := by
  rw [ofText, Descriptor.fields]
  cases Layout.ofText text <;> rfl

namespace Table

/-- The descriptor of a column. -/
def format (table : Table) : Column → String
  | .key => table.keyFormat
  | .value => table.valueFormat

/-- A column's descriptor is good just if all its fields can be read out. -/
theorem checkFormat_eq (column : Column) (format : String) :
    checkFormat column format =
      let format := if format.isEmpty then Layout.defaultText else format
      match Descriptor.fields format with
      | .ok _ => .ok format
      | .error cause => .error (.badFormat column format cause) := by
  simp only [checkFormat, Descriptor.fields]
  cases Layout.ofText (if format.isEmpty then Layout.defaultText else format) with
  | error cause => rfl
  | ok layout =>
    simp only [Except.bind, Layout.fields_eq]
    cases layout.fault? <;> rfl

theorem fields_of_checkFormat {column : Column} {given kept : String}
    (good : checkFormat column given = .ok kept) :
    ∃ fields, Descriptor.fields kept = .ok fields := by
  simp only [checkFormat_eq] at good
  cases known : Descriptor.fields (if given.isEmpty then Layout.defaultText else given) with
  | error cause =>
    rw [known] at good
    cases good
  | ok fields =>
    rw [known] at good
    cases good
    exact ⟨fields, known⟩

theorem checkFormat_of_broken (column : Column) {format : String} {cause : Descriptor.Error}
    (broken : Descriptor.fields format = .error cause) :
    ∃ error, checkFormat column format = .error error := by
  simp only [checkFormat_eq, Descriptor.fields_default, broken]
  exact ⟨_, rfl⟩

/-- Whatever a table is refused for, what describes it is malformed. -/
theorem Error.kind_eq (error : Error) : error.report.kind = .invalidFormat := by
  cases error <;> rfl

/-- No call of the table finds the descriptor of a column at fault. -/
def NeverRefuses (table : Table) : Column → Prop
  | .key =>
    (∀ key error, table.packKey key = .error error → error.report.kind ≠ .invalidFormat) ∧
    ∀ buffer error, table.unpackKey buffer = .error error → error.report.kind ≠ .invalidFormat
  | .value =>
    (∀ value error, table.packValue value = .error error → error.report.kind ≠ .invalidFormat) ∧
    ∀ buffer error, table.unpackValue buffer = .error error → error.report.kind ≠ .invalidFormat

theorem neverRefuses_of_fields {table : Table} {column : Column} {fields : List Field}
    (known : Descriptor.fields (table.format column) = .ok fields) : table.NeverRefuses column := by
  have calls := Record.neverRefused_of_fields known
  cases column <;> exact ⟨calls.packing, calls.reading⟩

/-- The ways to come by a table. -/
inductive Made : Table → Prop where
  | default : Made default
  | ofFormats (made : ofFormats key value = .ok table) : Made table
  | ofConfig (made : ofConfig config = .ok table) : Made table

theorem fields_of_ofFormats {keyFormat valueFormat : String} {table : Table}
    (made : ofFormats keyFormat valueFormat = .ok table) (column : Column) :
    ∃ fields, Descriptor.fields (table.format column) = .ok fields := by
  rw [ofFormats] at made
  cases key : checkFormat .key keyFormat with
  | error error =>
    rw [key] at made
    cases made
  | ok keyKept =>
    cases value : checkFormat .value valueFormat with
    | error error =>
      rw [key, value] at made
      cases made
    | ok valueKept =>
      rw [key, value] at made
      cases made
      cases column with
      | key => exact fields_of_checkFormat key
      | value => exact fields_of_checkFormat value

/-- A text makes the table of two descriptors, if it makes one. -/
theorem ofFormats_of_ofConfig {config : String} {table : Table} (made : ofConfig config = .ok table) :
    ∃ keyFormat valueFormat, ofFormats keyFormat valueFormat = .ok table := by
  rw [ofConfig] at made
  cases nested : checkNesting .outside 0 config.toList with
  | error error =>
    rw [nested] at made
    cases made
  | ok closed =>
    simp only [nested, bind, Except.bind] at made
    exact ⟨columnFormat (entries config) .key, columnFormat (entries config) .value, made⟩

theorem Made.fields {table : Table} (made : Made table) (column : Column) :
    ∃ fields, Descriptor.fields (table.format column) = .ok fields := by
  cases made with
  | default => cases column <;> exact ⟨_, Descriptor.fields_defaultText⟩
  | ofFormats made => exact fields_of_ofFormats made column
  | ofConfig made =>
    obtain ⟨_, _, made⟩ := ofFormats_of_ofConfig made
    exact fields_of_ofFormats made column

theorem ofFormats_of_broken {format : String} {cause : Descriptor.Error}
    (broken : Descriptor.fields format = .error cause) (other : String) :
    (∃ error, ofFormats format other = .error error) ∧
      ∃ error, ofFormats other format = .error error := by
  obtain ⟨badKey, key⟩ := checkFormat_of_broken .key broken
  obtain ⟨badValue, value⟩ := checkFormat_of_broken .value broken
  constructor
  · rw [ofFormats, key]
    exact ⟨badKey, rfl⟩
  · rw [ofFormats, value]
    cases checkFormat .key other with
    | error error => exact ⟨error, rfl⟩
    | ok kept => exact ⟨badValue, rfl⟩

/-- All calls agree on which descriptors are valid. If all fields of a descriptor can be read
out, nobody who packs or reads by it finds it at fault, a table that has it included. If they
cannot, nothing is packed or read by it, and no table takes it in either column. A table thus
never has a descriptor at fault. -/
theorem validity_agreed (descriptor : String) :
    (∀ fields, (Cursor.ofText descriptor).bind Cursor.fields = .ok fields →
      Record.NeverRefused descriptor ∧
      ∀ (table : Table) (column : Column), table.format column = descriptor →
        table.NeverRefuses column) ∧
    (∀ cause, (Cursor.ofText descriptor).bind Cursor.fields = .error cause →
      Record.AlwaysFails descriptor ∧
      ∀ other,
        (∃ error, ofFormats descriptor other = .error error ∧
          error.report.kind = .invalidFormat) ∧
        ∃ error, ofFormats other descriptor = .error error ∧
          error.report.kind = .invalidFormat) ∧
    ∀ (table : Table), Made table → ∀ column,
      (∃ fields, (Cursor.ofText (table.format column)).bind Cursor.fields = .ok fields) ∧
        table.NeverRefuses column := by
  refine ⟨?_, ?_, ?_⟩
  · intro fields known
    rw [Cursor.fields_ofText] at known
    refine ⟨Record.neverRefused_of_fields known, ?_⟩
    rintro table column rfl
    exact neverRefuses_of_fields known
  · intro cause broken
    rw [Cursor.fields_ofText] at broken
    refine ⟨Record.alwaysFails_of_fields broken, ?_⟩
    intro other
    obtain ⟨⟨badKey, key⟩, badValue, value⟩ := ofFormats_of_broken broken other
    exact ⟨⟨badKey, key, badKey.kind_eq⟩, badValue, value, badValue.kind_eq⟩
  · intro table made column
    obtain ⟨fields, known⟩ := made.fields column
    rw [Cursor.fields_ofText]
    exact ⟨⟨fields, known⟩, neverRefuses_of_fields known⟩

/-- A call that comes to the fault names it, and one that fails before that does not. -/
example : Record.pack "qz" [.int64 0] = .error (.descriptor (.unknownTag 1 122)) ∧
    Record.pack "qz" [] = .error (.missing 0 0) ∧
    ofFormats "S" "qz" = .error (.badFormat .value "qz" (.unknownTag 1 122)) := by
  refine ⟨?_, ?_, ?_⟩ <;> with_unfolding_all rfl

end Table

end OrderPack
