import Mathlib.Data.List.Forall2
import OrderPack.Proofs.Descriptor.Fields
import OrderPack.Proofs.Record.Spelling
import OrderPack.Record.Unpack

/-! What comes out of a record, whatever its bytes are. The bytes need not be those that
packing writes: numbers may take more bytes than they have to, padding may hold anything,
and more bytes may follow. A value has the kind of its field all the same, a text has no
NUL and is no longer than its field, and a byte holds no more than a byte. -/
namespace OrderPack

namespace Reader

theorem length_of_takeBytes {reader after : Reader} {bytes : List UInt8}
    (took : reader.takeBytes count = (.ok bytes, after)) : bytes.length = count := by
  rw [takeBytes, take] at took
  split at took
  · rename_i enough
    split at enough
    · cases enough
      cases took
      exact List.length_take_of_le ‹_›
    · cases enough
  · cases took

/-- A value made of the next bytes is made of as many as were asked for. -/
theorem of_takeBytes_map {reader after : Reader} {make : List UInt8 → Value}
    (read : (let (answer, left) := reader.takeBytes count; (answer.map make, left)) =
      (.ok value, after)) :
    ∃ bytes, bytes.length = count ∧ value = make bytes := by
  cases took : reader.takeBytes count with
  | mk answer left =>
    cases answer with
    | error error =>
      rw [took] at read
      cases read
    | ok bytes =>
      rw [took] at read
      cases read
      exact ⟨bytes, length_of_takeBytes took, rfl⟩

/-- The bytes of a text that is read are those it is read from. -/
theorem of_text {row : List UInt8} (read : text place row = .ok value) :
    ∃ content, value = .text content ∧ Text.bytes content = row := by
  rw [text] at read
  split at read
  · cases read
    exact ⟨_, rfl, (Text.ofBytes_eq_ok ‹_›).symm⟩
  · cases read

/-- What stands before a NUL has none. -/
theorem of_text_beforeNul {row : List UInt8}
    (read : text place (Field.beforeNul row) = .ok value) :
    ∃ content, value = .text content ∧ Text.bytes content = Field.beforeNul row ∧
      Text.untilNul content.toList = content.toList := by
  obtain ⟨content, rfl, spelt⟩ := of_text read
  refine ⟨content, rfl, spelt, Text.untilNul_of_bare ?_⟩
  intro byte found
  rw [← Text.bytes, spelt] at found
  exact Field.ne_zero_of_mem_beforeNul found

theorem of_fixedText {reader after : Reader} (read : reader.fixedText width = (.ok value, after)) :
    ∃ content, value = .text content ∧ Text.untilNul content.toList = content.toList ∧
      (Text.bytes content).length ≤ width := by
  rw [fixedText] at read
  split at read
  · rename_i row left took
    obtain ⟨content, rfl, spelt, bare⟩ := of_text_beforeNul (congrArg Prod.fst read)
    refine ⟨content, rfl, bare, ?_⟩
    calc (Text.bytes content).length = (Field.beforeNul row).length := by rw [spelt]
      _ ≤ row.length := (List.takeWhile_prefix _).length_le
      _ = width := length_of_takeBytes took
  · cases read

theorem of_terminatedText {reader after : Reader}
    (read : reader.terminatedText = (.ok value, after)) :
    ∃ content, value = .text content ∧ Text.untilNul content.toList = content.toList := by
  simp only [terminatedText] at read
  split at read
  · split at read
    · rename_i found
      cases read
      obtain ⟨content, rfl, _, bare⟩ := of_text_beforeNul found
      exact ⟨content, rfl, bare⟩
    · cases read
  · cases read

theorem of_sizedBytes {reader after : Reader} (read : reader.sizedBytes = (.ok value, after)) :
    ∃ content, value = .bytes content := by
  rw [sizedBytes] at read
  split at read
  · cases read
  · obtain ⟨content, _, rfl⟩ := of_takeBytes_map read
    exact ⟨content, rfl⟩

theorem of_byte {reader after : Reader} {make : Nat → Value}
    (read : reader.byte make = (.ok value, after)) : ∃ n, n < 256 ∧ value = make n := by
  obtain ⟨bytes, single, rfl⟩ := of_takeBytes_map read
  obtain ⟨byte, rfl⟩ := List.length_eq_one_iff.mp single
  refine ⟨_, ?_, rfl⟩
  rw [Varint.fromBigEndian, List.foldl_cons, List.foldl_nil, Nat.zero_mul, Nat.zero_add]
  exact byte.toNat_lt

end Reader

namespace Field

/-- The values that can be read from a field. Numbers of variable length are not held to
the width they are declared with. -/
def Yields (field : Field) (value : Value) : Prop :=
  match field.tag with
  | .padding => False
  | .fixedText => ∃ content, value = .text content ∧
      Text.untilNul content.toList = content.toList ∧ (Text.bytes content).length ≤ field.size
  | .text => ∃ content, value = .text content ∧
      Text.untilNul content.toList = content.toList ∧
      (field.sized = true → (Text.bytes content).length ≤ field.size)
  | .raw => ∃ content, value = .bytes content ∧
      (field.sized = true → content.length = field.size)
  | .sizedRaw => ∃ content, value = .bytes content
  | .bits | .scalar .uint8 => ∃ n, value = .uint64 n ∧ Value.Unsigned 8 n
  | .scalar .int8 => ∃ n, value = .int64 n ∧ Value.Signed 8 n
  | .scalar (.int _) => ∃ n, value = .int64 n
  | .scalar (.uint _) | .scalar .recordId => ∃ n, value = .uint64 n

theorem unsigned_ofNat {n : Nat} (small : n < 256) : Value.Unsigned 8 (UInt64.ofNat n) := by
  have word : n < UInt64.size := Nat.lt_trans small (by decide)
  rw [Value.Unsigned, UInt64.toNat_ofNat_of_lt' word]
  exact small

/-- A byte moved back down by half its range is a number of eight bits. -/
theorem signed_ofInt {n : Nat} (small : n < 256) :
    Value.Signed 8 (Int64.ofInt ((n : Int) - 128)) := by
  have same : (Int64.ofInt ((n : Int) - 128)).toInt = n - 128 :=
    Int64.toInt_ofInt_of_le (by omega) (by omega)
  have half : (Nat.pow 2 (8 - 1) : Int) = 128 := rfl
  rw [Value.Signed, same, half]
  omega

theorem read_yields {field : Field} {reader after : Reader} {value : Value}
    (read : field.read reader = (.ok value, after)) : field.Yields value := by
  obtain ⟨tag, size, sized⟩ := field
  cases tag with
  | padding => cases read
  | fixedText => exact Reader.of_fixedText read
  | text =>
    cases sized with
    | true =>
      obtain ⟨content, rfl, bare, fits⟩ := Reader.of_fixedText read
      exact ⟨content, rfl, bare, fun _ => fits⟩
    | false =>
      obtain ⟨content, rfl, bare⟩ := Reader.of_terminatedText read
      exact ⟨content, rfl, bare, fun fixed => nomatch fixed⟩
  | raw =>
    obtain ⟨content, length, rfl⟩ := Reader.of_takeBytes_map read
    refine ⟨content, rfl, ?_⟩
    intro fixed
    rw [length, if_pos fixed]
  | sizedRaw => exact Reader.of_sizedBytes read
  | bits =>
    change reader.byte (fun n => .uint64 (UInt64.ofNat n)) = _ at read
    obtain ⟨n, small, rfl⟩ := Reader.of_byte read
    exact ⟨_, rfl, unsigned_ofNat small⟩
  | scalar scalar =>
    cases scalar with
    | uint8 =>
      change reader.byte (fun n => .uint64 (UInt64.ofNat n)) = _ at read
      obtain ⟨n, small, rfl⟩ := Reader.of_byte read
      exact ⟨_, rfl, unsigned_ofNat small⟩
    | int8 =>
      change reader.byte (fun n => .int64 (Int64.ofInt (n - 128))) = _ at read
      obtain ⟨n, small, rfl⟩ := Reader.of_byte read
      exact ⟨_, rfl, signed_ofInt small⟩
    | int width =>
      simp only [Field.read] at read
      split at read
      · cases read
        exact ⟨_, rfl⟩
      · cases read
    | uint width =>
      simp only [Field.read] at read
      split at read
      · cases read
        exact ⟨_, rfl⟩
      · cases read
    | recordId =>
      obtain ⟨bytes, _, rfl⟩ := Reader.of_takeBytes_map read
      exact ⟨_, rfl⟩

end Field

namespace Record

theorem Reading.step_yields {reading next : Reading} {field : Field}
    (stepped : reading.step field = .ok next) :
    field.holdsValue = false ∧ next.values = reading.values ∨
      field.holdsValue = true ∧ ∃ value, field.Yields value ∧
        next.values = reading.values ++ [value] := by
  unfold step at stepped
  split at stepped
  · rename_i holds
    split at stepped
    · cases stepped
      exact .inr ⟨holds, _, Field.read_yields ‹_›, rfl⟩
    · cases stepped
  · rename_i skips
    split at stepped
    · cases stepped
      exact .inl ⟨Bool.not_eq_true _ |>.mp skips, rfl⟩
    · cases stepped

/-- A walk that gets to its end has found one value for each field that holds one. -/
theorem Reading.foldlM_yields {fields : List Field} {reading last : Reading}
    (passed : fields.foldlM step reading = .ok last) :
    ∃ read, last.values = reading.values ++ read ∧
      List.Forall₂ Field.Yields (fields.filter Field.holdsValue) read := by
  induction fields generalizing reading with
  | nil =>
    cases passed
    exact ⟨[], (List.append_nil _).symm, .nil⟩
  | cons field fields ih =>
    obtain ⟨next, stepped, onwards⟩ := Layout.foldlM_cons_eq_ok passed
    obtain ⟨read, all, yields⟩ := ih onwards
    rcases step_yields stepped with ⟨skips, same⟩ | ⟨holds, value, found, grown⟩
    · refine ⟨read, by rw [all, same], ?_⟩
      rwa [List.filter_cons_of_neg (Bool.eq_false_iff.mp skips)]
    · refine ⟨value :: read, ?_, ?_⟩
      · rw [all, grown, List.append_assoc, List.singleton_append]
      · rw [List.filter_cons_of_pos holds]
        exact .cons found yields

/-- Reading a record of a sound descriptor is a walk over its fields, unless there is
nothing to read. -/
theorem unpack_eq {descriptor : String} {fields : List Field} {buffer : List UInt8}
    (known : Descriptor.fields descriptor = .ok fields) (nonempty : buffer ≠ []) :
    unpack descriptor buffer =
      (fields.foldlM Reading.step ⟨⟨0, buffer⟩, 0, []⟩).map Reading.values := by
  obtain ⟨layout, opened, sound, rfl⟩ := Descriptor.fields_eq_ok_iff.mp known
  rw [unpack, openRecord, List.isEmpty_eq_false_iff.mpr nonempty, if_neg Bool.false_ne_true,
    opened]
  simp only [Except.mapError, Reading.run, Layout.foldFields_eq, sound]
  cases layout.leading.foldlM Reading.step ⟨⟨0, buffer⟩, 0, []⟩ <;> rfl

/-- Only a buffer that is not empty and a sound descriptor give values. -/
theorem fields_of_unpack {descriptor : String} {buffer : List UInt8} {read : List Value}
    (unpacks : unpack descriptor buffer = .ok read) :
    buffer ≠ [] ∧ ∃ fields, Descriptor.fields descriptor = .ok fields := by
  cases buffer with
  | nil => cases unpacks
  | cons byte rest =>
    refine ⟨List.cons_ne_nil byte rest, ?_⟩
    rw [unpack, openRecord, List.isEmpty_cons, if_neg Bool.false_ne_true] at unpacks
    cases opened : Layout.ofText descriptor with
    | error error =>
      rw [opened] at unpacks
      cases unpacks
    | ok layout =>
      simp only [opened, Except.mapError] at unpacks
      cases ran : Reading.run layout (byte :: rest) with
      | error error =>
        rw [ran] at unpacks
        cases unpacks
      | ok last =>
        obtain ⟨sound, _⟩ := Layout.foldFields_eq_ok_iff.mp ran
        exact ⟨layout.leading, Descriptor.fields_eq_ok_iff.mpr ⟨layout, opened, sound, rfl⟩⟩

/-- Whatever is read from any buffer is one value for each field that holds one, of those
that the field can yield. -/
theorem unpack_yields {descriptor : String} {buffer : List UInt8} {read : List Value}
    (unpacks : unpack descriptor buffer = .ok read) :
    ∃ fields, Descriptor.fields descriptor = .ok fields ∧
      List.Forall₂ Field.Yields (fields.filter Field.holdsValue) read := by
  obtain ⟨nonempty, fields, known⟩ := fields_of_unpack unpacks
  refine ⟨fields, known, ?_⟩
  rw [unpack_eq known nonempty] at unpacks
  cases passed : fields.foldlM Reading.step ⟨⟨0, buffer⟩, 0, []⟩ with
  | error error =>
    rw [passed] at unpacks
    cases unpacks
  | ok last =>
    rw [passed] at unpacks
    cases unpacks
    obtain ⟨read, all, yields⟩ := Reading.foldlM_yields passed
    rw [all]
    exact yields

end Record

end OrderPack
