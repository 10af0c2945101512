import OrderPack.Proofs.Record.Extension
import OrderPack.Proofs.Varint.Addressing

/-! Reading a field at an offset of a buffer, in the arithmetic of machine words. Whatever
field is asked for, and however large, nothing stops the reading as long as the offset is one
of the buffer, and it comes to an offset of the buffer again, so that the next can be read from
there. A field that fails has not moved on, but for a length that has been read and for text
that has been taken. -/
namespace OrderPack

theorem Field.slice?_beforeNul (bytes : List UInt8) :
    slice? bytes 0 (bytes.findIdx (· == 0)) = some (beforeNul bytes) := by
  have inside : 0 + bytes.findIdx (· == 0) ≤ bytes.length := by
    rw [Nat.zero_add]
    exact List.findIdx_le_length
  have cut := slice?_add inside
  rw [Nat.zero_add] at cut
  rw [cut, beforeNul_eq, List.drop_zero]

namespace Reader

/-- The next bytes, or the place as it was. -/
def takeBytesAt? (buffer : List UInt8) (start count : Nat) :
    Option (Except ReadError (List UInt8) × Reader) :=
  (takeAt? buffer start count).map fun answer =>
    match answer with
    | .ok (bytes, after) => (.ok bytes, after)
    | .error shortage => (.error (.shortage shortage), ofBuffer buffer start)

/-- Text in a fixed width, cut at its first NUL or at its end. -/
def fixedTextAt? (buffer : List UInt8) (start width : Nat) :
    Option (Except ReadError Value × Reader) := do
  match ← takeBytesAt? buffer start width with
  | (.error error, after) => return (.error error, after)
  | (.ok bytes, after) =>
    let content ← slice? bytes 0 (bytes.findIdx (· == 0))
    return (text start content, after)

/-- Text up to the next NUL in all that is left. -/
def terminatedTextAt? (buffer : List UInt8) (start : Nat) :
    Option (Except ReadError Value × Reader) := do
  let rest ← slice? buffer start buffer.length
  match rest.findIdx? (· == 0) with
  | none => return (.error (.unterminated start), ofBuffer buffer start)
  | some nul =>
    let content ← slice? rest 0 nul
    match text start content with
    | .error error => return (.error error, ofBuffer buffer start)
    | .ok value =>
      let stop ← Word.add? start nul
      let next ← Word.add? stop 1
      return (.ok value, ofBuffer buffer next)

/-- Bytes behind their length. -/
def sizedBytesAt? (buffer : List UInt8) (start : Nat) :
    Option (Except ReadError Value × Reader) := do
  match ← Varint.decodeNatAt? buffer start with
  | .error error => return (.error (.varint error), ofBuffer buffer start)
  | .ok (count, behind) =>
    let (answer, after) ← takeBytesAt? buffer behind.offset count
    return (answer.map .bytes, after)

/-- A number in the one byte that has been taken. -/
def byteValueAt? (buffer : List UInt8) (start : Nat) (value : Nat → Value) :
    Option (Except ReadError Value × Reader) := do
  match ← takeBytesAt? buffer start 1 with
  | (.error error, after) => return (.error error, after)
  | (.ok bytes, after) =>
    let byte ← bytes[0]?
    return (.ok (value byte.toNat), after)

/-- A number in eight bytes, which are copied to where just eight have room. -/
def recordIdAt? (buffer : List UInt8) (start : Nat) :
    Option (Except ReadError Value × Reader) := do
  match ← takeBytesAt? buffer start 8 with
  | (.error error, after) => return (.error error, after)
  | (.ok bytes, after) =>
    if bytes.length = 8 then
      return (.ok (.uint64 (UInt64.ofNat (Varint.fromBigEndian bytes))), after)
    else none

end Reader

/-- Reads the value of this field at an offset. -/
def Field.readAt? (field : Field) (buffer : List UInt8) (start : Nat) :
    Option (Except ReadError Value × Reader) :=
  match field.tag with
  | .padding => some (.error .noValue, Reader.ofBuffer buffer start)
  | .fixedText => Reader.fixedTextAt? buffer start field.size
  | .text =>
    if field.sized then Reader.fixedTextAt? buffer start field.size
    else Reader.terminatedTextAt? buffer start
  | .raw => do
    let count ← if field.sized then some field.size else Word.sub? buffer.length start
    let (answer, after) ← Reader.takeBytesAt? buffer start count
    return (answer.map .bytes, after)
  | .sizedRaw => Reader.sizedBytesAt? buffer start
  | .bits | .scalar .uint8 => Reader.byteValueAt? buffer start fun n => .uint64 (UInt64.ofNat n)
  | .scalar .int8 => Reader.byteValueAt? buffer start fun n => .int64 (Int64.ofInt (n - 128))
  | .scalar (.int _) =>
    (Varint.decodeSignedAt? buffer start).map ((Reader.ofBuffer buffer start).number .int64)
  | .scalar (.uint _) =>
    (Varint.decodeUnsignedAt? buffer start).map ((Reader.ofBuffer buffer start).number .uint64)
  | .scalar .recordId => Reader.recordIdAt? buffer start

section At
variable {buffer : List UInt8}

namespace Reader

theorem takeBytesAt?_eq (addressable : Addressable buffer) (inside : start ≤ buffer.length)
    (count : Nat) :
    takeBytesAt? buffer start count = some ((ofBuffer buffer start).takeBytes count) := by
  rw [takeBytesAt?, takeAt?_eq addressable inside, takeBytes]
  cases (ofBuffer buffer start).take count <;> rfl

theorem fixedTextAt?_eq (addressable : Addressable buffer) (inside : start ≤ buffer.length)
    (width : Nat) :
    fixedTextAt? buffer start width = some ((ofBuffer buffer start).fixedText width) := by
  rw [fixedTextAt?, takeBytesAt?_eq addressable inside, fixedText]
  simp only [Option.bind_eq_bind, Option.bind_some]
  cases (ofBuffer buffer start).takeBytes width with
  | mk answer after =>
    cases answer with
    | error error => rfl
    | ok bytes =>
      simp only [Field.slice?_beforeNul, Option.bind_some]
      rfl

theorem slice?_toEnd (inside : start ≤ buffer.length) :
    slice? buffer start buffer.length = some (buffer.drop start) := by
  have whole : start + (buffer.length - start) = buffer.length := by omega
  have length : (buffer.drop start).length ≤ buffer.length - start := by rw [List.length_drop]
  have cut := slice?_add (Nat.le_of_eq whole)
  rwa [whole, List.take_of_length_le length] at cut

theorem terminatedTextAt?_eq (addressable : Addressable buffer) (inside : start ≤ buffer.length) :
    terminatedTextAt? buffer start = some (ofBuffer buffer start).terminatedText := by
  have ahead : (ofBuffer buffer start).rest = buffer.drop start := rfl
  simp only [terminatedTextAt?, slice?_toEnd inside, terminatedText, Option.bind_eq_bind,
    Option.bind_some, ahead, Field.length_beforeNul]
  by_cases closed : (buffer.drop start).findIdx (· == 0) < (buffer.drop start).length
  · have found : (buffer.drop start).findIdx? (· == 0) =
        some ((buffer.drop start).findIdx (· == 0)) :=
      List.findIdx?_eq_some_iff_findIdx_eq.mpr ⟨closed, rfl⟩
    have before : start + (buffer.drop start).findIdx (· == 0) < buffer.length := by
      rw [List.length_drop] at closed
      omega
    have stop : Word.add? start ((buffer.drop start).findIdx (· == 0)) =
        some (start + (buffer.drop start).findIdx (· == 0)) :=
      Word.add?_of_lt (addressable.word (by omega))
    have next : Word.add? (start + (buffer.drop start).findIdx (· == 0)) 1 =
        some (start + (buffer.drop start).findIdx (· == 0) + 1) :=
      Word.add?_of_lt (addressable.word (by omega))
    simp only [if_pos closed, found, Field.slice?_beforeNul, stop, next, Option.bind_some]
    have offset : (ofBuffer buffer start).offset = start := rfl
    rw [offset]
    cases text start (Field.beforeNul (buffer.drop start)) with
    | error error => rfl
    | ok value =>
      simp only [ofBuffer, List.drop_drop, Nat.add_assoc]
      rfl
  · have missing : (buffer.drop start).findIdx? (· == 0) = none := by
      rw [List.findIdx?_eq_guard_findIdx_lt, Option.guard, if_neg (by simpa using closed)]
    simp only [if_neg closed, missing]
    rfl

theorem sizedBytesAt?_eq (addressable : Addressable buffer) (inside : start ≤ buffer.length) :
    sizedBytesAt? buffer start = some (ofBuffer buffer start).sizedBytes := by
  rw [sizedBytesAt?, Varint.decodeNatAt?_eq addressable, sizedBytes]
  simp only [Option.bind_eq_bind, Option.bind_some]
  cases decoded : Varint.decodeNat (ofBuffer buffer start) with
  | error error => rfl
  | ok found =>
    obtain ⟨count, behind⟩ := found
    have onward := Varint.decodeNat_advances _ _ _ decoded
    obtain ⟨place, _, within⟩ := onward.ofBuffer inside
    simp only [takeBytesAt?_eq addressable within, ← place, Option.bind_some]
    rfl

theorem byteValueAt?_eq (addressable : Addressable buffer) (inside : start ≤ buffer.length)
    (value : Nat → Value) :
    byteValueAt? buffer start value = some ((ofBuffer buffer start).byte value) := by
  rw [byteValueAt?, takeBytesAt?_eq addressable inside, byte]
  simp only [Option.bind_eq_bind, Option.bind_some]
  cases took : (ofBuffer buffer start).takeBytes 1 with
  | mk answer after =>
    cases answer with
    | error error => rfl
    | ok bytes =>
      obtain ⟨byte, rfl⟩ := List.length_eq_one_iff.mp (length_of_takeBytes took)
      have single : Varint.fromBigEndian [byte] = byte.toNat := by
        simp [Varint.fromBigEndian]
      simp only [single, Except.map]
      rfl

theorem recordIdAt?_eq (addressable : Addressable buffer) (inside : start ≤ buffer.length)
    (size : Nat) (sized : Bool) :
    recordIdAt? buffer start =
      some (Field.read ⟨.scalar .recordId, size, sized⟩ (ofBuffer buffer start)) := by
  rw [recordIdAt?, takeBytesAt?_eq addressable inside]
  simp only [Option.bind_eq_bind, Option.bind_some, Field.read]
  cases took : (ofBuffer buffer start).takeBytes 8 with
  | mk answer after =>
    cases answer with
    | error error => rfl
    | ok bytes =>
      simp only [if_pos (length_of_takeBytes took)]
      rfl

end Reader

/-- Nothing stops the reading of a field, and it reads what is read from the front. -/
theorem Field.readAt?_eq (field : Field) (addressable : Addressable buffer)
    (inside : start ≤ buffer.length) :
    field.readAt? buffer start = some (field.read (Reader.ofBuffer buffer start)) := by
  obtain ⟨tag, size, sized⟩ := field
  cases tag with
  | padding => rfl
  | fixedText => exact Reader.fixedTextAt?_eq addressable inside size
  | text =>
    cases sized with
    | true => exact Reader.fixedTextAt?_eq addressable inside size
    | false => exact Reader.terminatedTextAt?_eq addressable inside
  | raw =>
    have left : (Reader.ofBuffer buffer start).rest.length = buffer.length - start := by
      rw [Reader.ofBuffer, List.length_drop]
    cases sized <;>
    simp only [readAt?, read, left, Word.sub?_of_le inside, Reader.takeBytesAt?_eq addressable inside,
      Bool.false_eq_true, if_true, if_false, Option.bind_eq_bind, Option.bind_some] <;>
    rfl
  | sizedRaw => exact Reader.sizedBytesAt?_eq addressable inside
  | bits => exact Reader.byteValueAt?_eq addressable inside fun n => .uint64 (UInt64.ofNat n)
  | scalar scalar =>
    cases scalar with
    | uint8 => exact Reader.byteValueAt?_eq addressable inside fun n => .uint64 (UInt64.ofNat n)
    | int8 =>
      exact Reader.byteValueAt?_eq addressable inside fun n => .int64 (Int64.ofInt (n - 128))
    | int width =>
      rw [read_int, readAt?]
      simp only [Varint.decodeSignedAt?_eq addressable, Option.map_some]
    | uint width =>
      rw [read_uint, readAt?]
      simp only [Varint.decodeUnsignedAt?_eq addressable, Option.map_some]
    | recordId => exact Reader.recordIdAt?_eq addressable inside size sized

end At

namespace Reader

/-- Either the bytes are all there and are passed, or the place is kept. -/
theorem takeBytes_cases (reader : Reader) (count : Nat) :
    (count ≤ reader.rest.length ∧ reader.takeBytes count =
      (.ok (reader.rest.take count), ⟨reader.offset + count, reader.rest.drop count⟩)) ∨
    reader.rest.length < count ∧ ∃ cause, reader.takeBytes count = (.error cause, reader) := by
  by_cases enough : count ≤ reader.rest.length
  · refine .inl ⟨enough, ?_⟩
    rw [takeBytes, take, if_pos enough]
  · refine .inr ⟨Nat.lt_of_not_le enough, ?_⟩
    rw [takeBytes, take, if_neg enough]
    exact ⟨_, rfl⟩

theorem takeBytes_onward (reader : Reader) (count : Nat) :
    reader.Onward (reader.takeBytes count).2 := by
  rcases takeBytes_cases reader count with ⟨enough, took⟩ | ⟨_, cause, short⟩
  · rw [took]
    exact ⟨count, enough, rfl⟩
  · rw [short]
    exact .refl reader

theorem fixedText_onward (reader : Reader) (width : Nat) :
    reader.Onward (reader.fixedText width).2 := by
  have onward := takeBytes_onward reader width
  rw [fixedText]
  cases took : reader.takeBytes width with
  | mk answer after =>
    rw [took] at onward
    cases answer <;> exact onward

theorem terminatedText_onward (reader : Reader) : reader.Onward reader.terminatedText.2 := by
  simp only [terminatedText]
  by_cases closed : (Field.beforeNul reader.rest).length < reader.rest.length
  · rw [if_pos closed]
    cases text reader.offset (Field.beforeNul reader.rest) with
    | error error => exact .refl reader
    | ok value => exact ⟨_, Nat.succ_le_of_lt closed, rfl⟩
  · rw [if_neg closed]
    exact .refl reader

theorem sizedBytes_onward (reader : Reader) : reader.Onward reader.sizedBytes.2 := by
  rw [sizedBytes]
  cases decoded : Varint.decodeNat reader with
  | error error => exact .refl reader
  | ok found =>
    have onward := Varint.decodeNat_advances reader _ _ decoded
    exact onward.trans (takeBytes_onward found.2 found.1)

theorem number_onward {reader : Reader} {decoded : Except Varint.Error (α × Reader)}
    (advances : Varint.Advances reader decoded) (make : α → Value) :
    reader.Onward (reader.number make decoded).2 := by
  cases decoded with
  | error error => exact .refl reader
  | ok found => exact advances found.1 found.2 rfl

end Reader

namespace Field

/-- Whether or not a field can be read, what is left is not before it. -/
theorem read_onward (field : Field) (reader : Reader) : reader.Onward (field.read reader).2 := by
  obtain ⟨tag, size, sized⟩ := field
  cases tag with
  | padding => exact .refl reader
  | fixedText => exact reader.fixedText_onward size
  | text =>
    cases sized with
    | true => exact reader.fixedText_onward size
    | false => exact reader.terminatedText_onward
  | raw =>
    cases sized with
    | true => exact reader.takeBytes_onward size
    | false => exact reader.takeBytes_onward reader.rest.length
  | sizedRaw => exact reader.sizedBytes_onward
  | bits => exact reader.takeBytes_onward 1
  | scalar scalar =>
    cases scalar with
    | uint8 | int8 => exact reader.takeBytes_onward 1
    | int width =>
      rw [read_int]
      exact Reader.number_onward (Varint.decodeSigned_advances reader) .int64
    | uint width =>
      rw [read_uint]
      exact Reader.number_onward (Varint.decodeUnsigned_advances reader) .uint64
    | recordId => exact reader.takeBytes_onward 8

/-- Text that takes its width whatever it holds. -/
def FixedWidth (field : Field) : Prop :=
  field.tag = .fixedText ∨ field.tag = .text ∧ field.sized = true

/-- Where the reading of a field stands if it fails. -/
inductive FailsAt (field : Field) (reader : Reader) : Nat → Prop where
  /-- The length of the bytes has been read. -/
  | behindLength (raw : field.tag = .sizedRaw)
      (decoded : Varint.decodeUnsigned reader = .ok (count, behind)) :
      FailsAt field reader behind.offset
  /-- The bytes of the text are all there, and those before the first NUL are no text. -/
  | behindText (fixed : field.FixedWidth) (present : field.size ≤ reader.rest.length)
      (invalid : ∀ content, Text.bytes content ≠ beforeNul (reader.rest.take field.size)) :
      FailsAt field reader (reader.offset + field.size)
  | unmoved
      (noLength : field.tag = .sizedRaw → ∀ count behind,
        Varint.decodeUnsigned reader ≠ .ok (count, behind))
      (noText : field.FixedWidth → reader.rest.length < field.size) :
      FailsAt field reader reader.offset

/-- Fields without a length in front and without a fixed width keep their place. -/
theorem FailsAt.of_kept {field : Field} {reader after : Reader} (noLength : field.tag ≠ .sizedRaw)
    (noFixed : field.tag ≠ .fixedText) (noSized : field.tag = .text → field.sized = false)
    (kept : after = reader) : field.FailsAt reader after.offset := by
  rw [kept]
  refine .unmoved (fun raw => absurd raw noLength) ?_
  rintro (fixed | ⟨text, sized⟩)
  · exact absurd fixed noFixed
  · cases sized.symm.trans (noSized text)

theorem failsAt_fixedText {field : Field} {reader after : Reader} {cause : ReadError}
    (fixed : field.FixedWidth) (failed : reader.fixedText field.size = (.error cause, after)) :
    field.FailsAt reader after.offset := by
  rw [Reader.fixedText] at failed
  rcases reader.takeBytes_cases field.size with ⟨enough, took⟩ | ⟨short, lack, ran⟩
  · rw [took] at failed
    obtain ⟨invalid, rfl⟩ := Prod.mk.inj failed
    refine .behindText fixed enough ?_
    intro content spelt
    rw [Reader.text, ← spelt, Text.bytes, Text.ofBytes_utf8] at invalid
    cases invalid
  · rw [ran] at failed
    cases failed
    refine .unmoved ?_ fun _ => short
    intro raw
    rcases fixed with text | ⟨text, _⟩ <;> cases raw.symm.trans text

theorem failsAt_sizedBytes {field : Field} {reader after : Reader} {cause : ReadError}
    (raw : field.tag = .sizedRaw) (failed : reader.sizedBytes = (.error cause, after)) :
    field.FailsAt reader after.offset := by
  rw [Reader.sizedBytes] at failed
  cases decoded : Varint.decodeNat reader with
  | error error =>
    rw [decoded] at failed
    cases failed
    refine .unmoved ?_ ?_
    · intro _ count behind read
      rw [Varint.decodeUnsigned, decoded] at read
      cases read
    · rintro (text | ⟨text, _⟩) <;> cases raw.symm.trans text
  | ok found =>
    obtain ⟨count, behind⟩ := found
    rw [decoded] at failed
    have read : Varint.decodeUnsigned reader = .ok (UInt64.ofNat count, behind) := by
      rw [Varint.decodeUnsigned, decoded]
      rfl
    rcases behind.takeBytes_cases count with ⟨_, took⟩ | ⟨_, lack, ran⟩
    · simp only [took] at failed
      cases failed
    · simp only [ran] at failed
      cases failed
      exact .behindLength raw read

theorem kept_of_takeBytes {reader after : Reader} {count : Nat} {make : List UInt8 → Value}
    {cause : ReadError}
    (failed : (let (answer, left) := reader.takeBytes count; (answer.map make, left)) =
      (.error cause, after)) : after = reader := by
  rcases reader.takeBytes_cases count with ⟨_, took⟩ | ⟨_, lack, ran⟩
  · rw [took] at failed
    cases failed
  · rw [ran] at failed
    cases failed
    rfl

theorem kept_of_terminatedText {reader after : Reader} {cause : ReadError}
    (failed : reader.terminatedText = (.error cause, after)) : after = reader := by
  simp only [Reader.terminatedText] at failed
  split at failed
  · split at failed
    · cases failed
    · cases failed
      rfl
  · cases failed
    rfl

theorem kept_of_number {reader after : Reader} {make : α → Value}
    {decoded : Except Varint.Error (α × Reader)} {cause : ReadError}
    (failed : reader.number make decoded = (.error cause, after)) : after = reader := by
  cases decoded with
  | error error =>
    cases failed
    rfl
  | ok found => cases failed

theorem read_fails {field : Field} {reader after : Reader} {cause : ReadError}
    (failed : field.read reader = (.error cause, after)) : field.FailsAt reader after.offset := by
  obtain ⟨tag, size, sized⟩ := field
  cases tag with
  | padding =>
    cases failed
    exact .of_kept nofun nofun nofun rfl
  | fixedText => exact failsAt_fixedText (.inl rfl) failed
  | text =>
    cases sized with
    | true => exact failsAt_fixedText (.inr ⟨rfl, rfl⟩) failed
    | false => exact .of_kept nofun nofun (fun _ => rfl) (kept_of_terminatedText failed)
  | raw => exact .of_kept nofun nofun nofun (kept_of_takeBytes failed)
  | sizedRaw => exact failsAt_sizedBytes rfl failed
  | bits => exact .of_kept nofun nofun nofun (kept_of_takeBytes failed)
  | scalar scalar =>
    refine .of_kept nofun nofun nofun ?_
    cases scalar with
    | uint8 | int8 | recordId => exact kept_of_takeBytes failed
    | int width =>
      rw [read_int] at failed
      exact kept_of_number failed
    | uint width =>
      rw [read_uint] at failed
      exact kept_of_number failed

end Field

end OrderPack
