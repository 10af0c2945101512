import OrderPack.Proofs.Text.Utf8
import OrderPack.Proofs.Varint.RoundTrip
import OrderPack.Record.Encode

/-! The bytes that spell a value in a field. `Field.Spells` says for each tag which
values it takes and how they are written, apart from the two dispatches that do the
work; the sizing one and the writing one are both found to follow it. -/
namespace OrderPack

private theorem bind_eq_ok_iff {check : Except ε α} {next : α → β} {result : β} :
    (do let a ← check; return next a) = Except.ok result ↔
      ∃ a, check = .ok a ∧ result = next a := by
  cases check with
  | error error => exact ⟨fun made => (nomatch made), fun ⟨_, checked, _⟩ => (nomatch checked)⟩
  | ok a =>
    constructor
    · intro made
      exact ⟨a, rfl, (Except.ok.inj made).symm⟩
    · rintro ⟨_, checked, rfl⟩
      cases checked
      rfl

private theorem guard_eq_ok_iff {condition : Prop} [Decidable condition] {error : ε} {a b : α} :
    (if condition then Except.ok a else .error error) = .ok b ↔ a = b ∧ condition := by
  by_cases holds : condition
  · rw [if_pos holds, Except.ok.injEq, and_iff_left holds]
  · rw [if_neg holds]
    exact ⟨fun made => (nomatch made), fun ⟨_, met⟩ => absurd met holds⟩

namespace Value

theorem expectText_eq_ok_iff {value : Value} {content : String} :
    value.expectText = .ok content ↔ value = .text content := by
  cases value <;> simp [expectText]

theorem expectBytes_eq_ok_iff {value : Value} {content : List UInt8} :
    value.expectBytes = .ok content ↔ value = .bytes content := by
  cases value <;> simp [expectBytes]

/-- The signed numbers of so many bits. -/
def Signed (bits : Nat) (n : Int64) : Prop :=
  -(Nat.pow 2 (bits - 1) : Int) ≤ n.toInt ∧ n.toInt < (Nat.pow 2 (bits - 1) : Int)

/-- The unsigned numbers of so many bits. -/
def Unsigned (bits : Nat) (n : UInt64) : Prop := n.toNat < Nat.pow 2 bits

theorem expectSigned_eq_ok_iff {value : Value} {n : Int64} :
    value.expectSigned bits = .ok n ↔ value = .int64 n ∧ Signed bits n := by
  cases value with
  | int64 m =>
    simp only [expectSigned, guard_eq_ok_iff, Value.int64.injEq]
    constructor
    · rintro ⟨rfl, inside⟩
      exact ⟨rfl, inside⟩
    · rintro ⟨rfl, inside⟩
      exact ⟨rfl, inside⟩
  | uint64 | text | bytes => simp [expectSigned]

theorem expectUnsigned_eq_ok_iff {value : Value} {n : UInt64} :
    value.expectUnsigned bits = .ok n ↔ value = .uint64 n ∧ Unsigned bits n := by
  cases value with
  | uint64 m =>
    simp only [expectUnsigned, guard_eq_ok_iff, Value.uint64.injEq]
    constructor
    · rintro ⟨rfl, inside⟩
      exact ⟨rfl, inside⟩
    · rintro ⟨rfl, inside⟩
      exact ⟨rfl, inside⟩
  | int64 | text | bytes => simp [expectUnsigned]

end Value

namespace Field

/-- What a field of raw bytes keeps of its content: all of it, or as much as its size
says, with zeros where there is less. -/
def image (field : Field) (content : List UInt8) : List UInt8 :=
  if field.sized then content.take field.size ++ zeros (field.size - content.length) else content

@[simp] theorem length_zeros (count : Nat) : (zeros count).length = count :=
  List.length_replicate

theorem length_image {field : Field} (fixed : field.sized = true) (content : List UInt8) :
    (field.image content).length = field.size := by
  rw [image, if_pos fixed, List.length_append, length_zeros, List.length_take]
  omega

/-- The extent that is copied and filled makes up the image. -/
theorem take_append_zeros_rawExtent (field : Field) (content : List UInt8) :
    content.take (field.rawExtent content.length).1 ++
      zeros (field.rawExtent content.length).2 = field.image content := by
  unfold rawExtent image
  split
  · split
    · rename_i longer
      simp only
      rw [Nat.sub_eq_zero_of_le (Nat.le_of_lt longer)]
    · rename_i fitting
      simp only
      rw [List.take_length, List.take_of_length_le (Nat.le_of_not_lt fitting)]
  · exact (congrArg (· ++ []) List.take_length).trans (List.append_nil content)

theorem rawExtent_le (field : Field) (length : Nat) : (field.rawExtent length).1 ≤ length := by
  unfold rawExtent
  split
  · split
    · exact Nat.le_of_lt ‹_›
    · exact Nat.le_refl _
  · exact Nat.le_refl _

theorem rawExtent_sum (field : Field) (content : List UInt8) :
    (field.rawExtent content.length).1 + (field.rawExtent content.length).2 =
      (field.image content).length := by
  rw [← take_append_zeros_rawExtent, List.length_append, length_zeros,
    List.length_take_of_le (field.rawExtent_le content.length)]

/-- How a value that the field takes is written. Numbers in a fixed number of bytes are
written with their most significant byte first, a signed one from the least of its
range on. -/
def Spells (field : Field) (value : Value) (bytes : List UInt8) : Prop :=
  match field.tag with
  | .padding => bytes = zeros field.size
  | .fixedText => ∃ content, value = .text content ∧ bytes = fixedText field.size content.toList
  | .text => ∃ content, value = .text content ∧
      bytes = if field.sized then fixedText field.size content.toList
        else terminated (Text.bytes content)
  | .raw => ∃ content, value = .bytes content ∧ bytes = field.image content
  | .sizedRaw => ∃ content, value = .bytes content ∧
      bytes = Varint.encodeNat (field.image content).length ++ field.image content
  | .bits => ∃ n, value = .uint64 n ∧ Value.Unsigned field.size n ∧
      bytes = Varint.bigEndian 1 n.toNat
  | .scalar .int8 => ∃ n, value = .int64 n ∧ Value.Signed 8 n ∧
      bytes = Varint.bigEndian 1 (n.toInt + 128).toNat
  | .scalar .uint8 => ∃ n, value = .uint64 n ∧ Value.Unsigned 8 n ∧
      bytes = Varint.bigEndian 1 n.toNat
  | .scalar (.int width) => ∃ n, value = .int64 n ∧ Value.Signed width.bits n ∧
      bytes = Varint.encodeSigned n
  | .scalar (.uint width) => ∃ n, value = .uint64 n ∧ Value.Unsigned width.bits n ∧
      bytes = Varint.encodeUnsigned n
  | .scalar .recordId => ∃ n, value = .uint64 n ∧ bytes = Varint.bigEndian 8 n.toNat

theorem bigEndian_one (n : Nat) : Varint.bigEndian 1 n = [UInt8.ofNat n] := by
  rw [Varint.bigEndian, Varint.bigEndian, Varint.span, Nat.div_one]

theorem unsigned_word (n : UInt64) : Value.Unsigned 64 n := n.toNat_lt

/-- A value can be written just if the field takes it, and then as it is spelt. -/
theorem encode_eq_ok_iff {field : Field} {value : Value} {bytes : List UInt8} :
    field.encode value = .ok bytes ↔ field.Spells value bytes := by
  obtain ⟨tag, size, sized⟩ := field
  unfold encode Spells
  cases tag with
  | padding => exact ⟨fun made => (Except.ok.inj made).symm, fun spelt => congrArg _ spelt.symm⟩
  | fixedText | text =>
    simp only [bind_eq_ok_iff, Value.expectText_eq_ok_iff]
  | raw =>
    simp only [bind_eq_ok_iff, Value.expectBytes_eq_ok_iff, take_append_zeros_rawExtent]
  | sizedRaw =>
    simp only [bind_eq_ok_iff, Value.expectBytes_eq_ok_iff, rawExtent_sum, List.append_assoc,
      take_append_zeros_rawExtent]
  | bits => simp only [bind_eq_ok_iff, Value.expectUnsigned_eq_ok_iff, bigEndian_one, and_assoc]
  | scalar scalar =>
    cases scalar with
    | int8 =>
      simp only [bind_eq_ok_iff, Value.expectSigned_eq_ok_iff, bigEndian_one, flippedByte,
        and_assoc]
    | uint8 =>
      simp only [bind_eq_ok_iff, Value.expectUnsigned_eq_ok_iff, bigEndian_one, and_assoc]
    | int width => simp only [bind_eq_ok_iff, Value.expectSigned_eq_ok_iff, and_assoc]
    | uint width => simp only [bind_eq_ok_iff, Value.expectUnsigned_eq_ok_iff, and_assoc]
    | recordId =>
      simp only [bind_eq_ok_iff, Value.expectUnsigned_eq_ok_iff, unsigned_word, and_true]

theorem length_fixedText (width : Nat) (chars : List Char) :
    (fixedText width chars).length = width := by
  have fits := (Text.takeFitting_longestFitting width chars).fits
  rw [fixedText, List.length_append, length_zeros]
  omega

theorem length_terminated (bytes : List UInt8) :
    (terminated bytes).length = (beforeNul bytes).length + 1 := List.length_append

theorem beforeNul_eq (bytes : List UInt8) :
    beforeNul bytes = bytes.take (bytes.findIdx (· == 0)) := by
  rw [beforeNul, List.takeWhile_eq_take_findIdx_not]
  simp [bne]

theorem length_beforeNul (bytes : List UInt8) :
    (beforeNul bytes).length = bytes.findIdx (· == 0) := by
  rw [beforeNul_eq, List.length_take, Nat.min_eq_left List.findIdx_le_length]

theorem ne_zero_of_mem_beforeNul {bytes : List UInt8} (found : byte ∈ beforeNul bytes) :
    byte ≠ 0 :=
  bne_iff_ne.mp (List.all_eq_true.mp List.all_takeWhile byte found)

/-- The bytes before the first zero of a text are those of its characters before NUL. -/
theorem beforeNul_utf8 (chars : List Char) :
    beforeNul (Text.utf8 chars) = Text.utf8 (Text.untilNul chars) := by
  have bare := Text.takeWhile_utf8_append chars 0
  rwa [List.replicate_zero, List.append_nil] at bare

/-- Checked alike, a size found on its own is the length of what is written. -/
private theorem map_length_eq {check : Except Misfit α} {bytes : α → List UInt8} {size : α → Nat}
    (agree : ∀ a, size a = (bytes a).length) :
    (do let a ← check; return size a) = (do let a ← check; return bytes a).map List.length := by
  cases check with
  | error misfit => rfl
  | ok a => exact congrArg Except.ok (agree a)

/-- The size of a value is found without writing it, and any misfit with it. -/
theorem encodedSize_eq (field : Field) (value : Value) :
    field.encodedSize value = (field.encode value).map List.length := by
  obtain ⟨tag, size, sized⟩ := field
  unfold encodedSize encode
  cases tag with
  | padding => exact congrArg Except.ok (length_zeros size).symm
  | fixedText => exact map_length_eq fun content => (length_fixedText size _).symm
  | text =>
    cases sized with
    | true => exact map_length_eq fun content => (length_fixedText size _).symm
    | false => exact map_length_eq fun content => (length_terminated _).symm
  | raw =>
    simp only [take_append_zeros_rawExtent, rawExtent_sum]
    exact map_length_eq fun content => rfl
  | sizedRaw =>
    simp only [List.append_assoc, take_append_zeros_rawExtent, Nat.add_assoc, rawExtent_sum]
    refine map_length_eq fun content => ?_
    rw [List.length_append, Varint.length_encodeNat]
  | bits => exact map_length_eq fun n => rfl
  | scalar scalar =>
    cases scalar with
    | int8 | uint8 => exact map_length_eq fun n => rfl
    | int width => exact map_length_eq fun n => (Varint.length_encodeSigned n).symm
    | uint width => exact map_length_eq fun n => (Varint.length_encodeUnsigned n).symm
    | recordId => exact map_length_eq fun n => (Varint.length_bigEndian 8 _).symm

end Field

end OrderPack
