import OrderPack.Proofs.Arguments.Typing
import OrderPack.Proofs.Json.RoundTrip
import OrderPack.Proofs.Record.Slots

/-! Values that are written as JSON and read back. Their JSON form has no tags: the sign class of
a number is lost in it, and bytes are an array like any other. It is the fields of the descriptor
that tell them apart again. -/
namespace OrderPack

namespace Json

theorem int64?_ofInt64 (n : Int64) : (ofInt64 n).int64? = some n := by
  rw [ofInt64]
  split
  · rfl
  · rename_i natural
    have limit := n.toInt_lt
    have same : n.toUInt64.toNat = n.toInt.toNat :=
      Int64.toNat_toUInt64_of_le (Int64.le_iff_toInt_le.mpr (Int.not_lt.mp natural))
    have half : UInt64.size / 2 = 9223372036854775808 := rfl
    have small : n.toUInt64.toNat < UInt64.size / 2 := by omega
    rw [int64?, if_pos small]
    rfl

end Json

/-- Values of every kind read back from what is written for them. -/
theorem Value.plain_toJson (value : Value) (depth : Nat) : Json.Plain (depth + 1) value.toJson := by
  cases value with
  | int64 n =>
    rw [toJson, Json.ofInt64]
    split
    · rename_i below
      exact .negative below
    · exact .natural _
  | uint64 n => exact .natural n
  | text content => exact .string content
  | bytes content =>
    refine .array fun item found => ?_
    obtain ⟨byte, _, rfl⟩ := List.mem_map.mp found
    exact .natural _

theorem plain_toJson_array (values : List Value) (depth : Nat) :
    Json.Plain (depth + 2) (.array (values.map Value.toJson)) := by
  refine .array fun item found => ?_
  obtain ⟨value, _, rfl⟩ := List.mem_map.mp found
  exact value.plain_toJson depth

namespace Arguments

/-- Where the kind is known, a value is found again in its JSON form. -/
theorem coerce?_toJson (value : Value) : coerce? value.kind value.toJson = some value := by
  cases value with
  | int64 n =>
    rw [Value.toJson, Value.kind, coerce?, Json.int64?_ofInt64]
    rfl
  | uint64 n => rfl
  | text content => rfl
  | bytes content =>
    rw [Value.toJson, Value.kind, coerce?, Json.bytes?, Json.mapM_byte?_eq_some_iff.mpr rfl]
    rfl

/-- Values of the kinds of their fields are converted to themselves. -/
theorem convert_toJson {fields : List Field} {read : List Value} (index first : Nat)
    (kinds : List.Forall₂ (fun field value => field.tag.kind? = some value.kind)
      (fields.filter Field.holdsValue) read) :
    convert index (placed first fields) (read.map Value.toJson) = .ok read := by
  induction fields generalizing index first read with
  | nil =>
    cases kinds
    rfl
  | cons field fields ih =>
    rw [placed]
    cases own : field.tag.kind? with
    | none =>
      rw [List.filter_cons_of_neg (Bool.eq_false_iff.mp (Field.skips_of_kind own))] at kinds
      exact ih index (first + 1) kinds
    | some kind =>
      rw [List.filter_cons_of_pos (Field.holdsValue_of_kind own)] at kinds
      cases kinds with
      | @cons _ value _ read same kinds =>
        obtain rfl : kind = value.kind := Option.some.inj (own.symm.trans same)
        rw [List.map_cons]
        simp only
        rw [convert, coerce?_toJson]
        simp only [ih (index + 1) (first + 1) kinds]
        rfl

/-- Whatever is unpacked is found again in its JSON form, under the same descriptor. -/
theorem values_toJson {descriptor : String} {buffer : List UInt8} {read : List Value}
    (unpacks : Record.unpack descriptor buffer = .ok read) :
    values descriptor (.array (read.map Value.toJson)) = .ok read := by
  obtain ⟨fields, known, yields⟩ := Record.unpack_yields unpacks
  obtain ⟨layout, opened, _, rfl⟩ := Descriptor.fields_eq_ok_iff.mp known
  have kinds := yields.imp fun _ _ => Field.Yields.kind
  have enough : (read.map Value.toJson).length = (placed 0 layout.leading).length := by
    rw [List.length_map, length_placed, List.countP_eq_length_filter]
    exact yields.length_eq.symm
  have found : places (read.map Value.toJson).length 0 layout = .ok (placed 0 layout.leading) := by
    rw [places_eq, if_pos (Nat.le_of_eq enough), enough, List.take_length]
  rw [values]
  simp only [opened, found]
  exact convert_toJson 0 0 kinds

end Arguments

end OrderPack
