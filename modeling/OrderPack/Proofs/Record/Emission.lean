import OrderPack.Proofs.Descriptor.Fields
import OrderPack.Proofs.Record.Packing
import OrderPack.Proofs.Text.Boundary
import OrderPack.Proofs.Varint.Sizes

/-! Sizing and writing the value of one field in the arithmetic of machine words. What a text or a
byte string takes has room in a word, since it lies in memory. A count may be as large as a word
can be, and nothing is added to one while sizing; in front of bytes with their length there is
none. Before anything is written the record is known to be in bounds, and the sums that place the
zeros behind a value are hardly larger. -/
namespace OrderPack

/-- What the value holds lies in memory. -/
def Value.Addressable : Value → Prop
  | .text content => OrderPack.Addressable (Text.bytes content)
  | .bytes content => OrderPack.Addressable content
  | .int64 _ | .uint64 _ => True

instance : (value : Value) → Decidable value.Addressable
  | .text content => inferInstanceAs (Decidable (OrderPack.Addressable (Text.bytes content)))
  | .bytes content => inferInstanceAs (Decidable (OrderPack.Addressable content))
  | .int64 _ | .uint64 _ => inferInstanceAs (Decidable True)

namespace Value

/-- A signed number of so many bits. The greatest one is found from its places, and the least one
from the greatest. -/
def expectSignedAt? (bits : Nat) : Value → Option (Except Misfit Int64)
  | .int64 n =>
    if bits < 64 then do
      let place ← Word.sub? bits 1
      let half ← Word.signedBit? place
      let most ← Word.subSigned? half 1
      let negated ← Word.subSigned? 0 most
      let least ← Word.subSigned? negated 1
      return if n.toInt < least ∨ most < n.toInt then .error (.range n.toInt bits true) else .ok n
    else some (.ok n)
  | value => some (.error (.kind value.kind))

/-- An unsigned number of so many bits. -/
def expectUnsignedAt? (bits : Nat) : Value → Option (Except Misfit UInt64)
  | .uint64 n =>
    if bits < 64 then do
      let behind ← Word.bit? bits
      let most ← Word.sub? behind 1
      return if most < n.toNat then .error (.range n.toNat bits false) else .ok n
    else some (.ok n)
  | value => some (.error (.kind value.kind))

end Value

namespace Field

/-- How many bytes are copied out of so many, and how many zeros are put after them. -/
def rawExtentAt? (field : Field) (length : Nat) : Option (Nat × Nat) :=
  if field.sized then
    if field.size < length then some (field.size, 0)
    else (Word.sub? field.size length).map (length, ·)
  else some (length, 0)

/-- The size of text up to its first NUL, which is added where there is none. -/
def terminatedSizeAt? (bytes : List UInt8) : Option Nat :=
  match bytes.findIdx? (· == 0) with
  | some nul => Word.add? nul 1
  | none => Word.add? bytes.length 1

/-- The size of bytes, behind their length if `behind` says so. -/
def rawSizeAt? (field : Field) (behind : Bool) (length : Nat) : Option Nat := do
  let (copied, filled) ← field.rawExtentAt? length
  let extent ← Word.add? copied filled
  if behind then
    let front ← Word.add? (Varint.sizeNat extent) copied
    Word.add? front filled
  else return extent

/-- How many bytes a value takes. The number of bits is cut to half a word. -/
def encodedSizeAt? (field : Field) (value : Value) : Option (Except Misfit Nat) :=
  match field.tag with
  | .padding => some (.ok field.size)
  | .fixedText => some (value.expectText.map fun _ => field.size)
  | .text =>
    match value.expectText with
    | .error misfit => some (.error misfit)
    | .ok content =>
      if field.sized then some (.ok field.size)
      else (terminatedSizeAt? (Text.bytes content)).map .ok
  | .raw | .sizedRaw =>
    match value.expectBytes with
    | .error misfit => some (.error misfit)
    | .ok content => (field.rawSizeAt? (field.tag == .sizedRaw) content.length).map .ok
  | .bits => (value.expectUnsignedAt? (field.size % 0x100000000)).map (·.map fun _ => 1)
  | .scalar .int8 => (value.expectSignedAt? 8).map (·.map fun _ => 1)
  | .scalar .uint8 => (value.expectUnsignedAt? 8).map (·.map fun _ => 1)
  | .scalar (.int width) => (value.expectSignedAt? width.bits).map (·.map Varint.sizeSigned)
  | .scalar (.uint width) => (value.expectUnsignedAt? width.bits).map (·.map Varint.sizeUnsigned)
  | .scalar .recordId => (value.expectUnsignedAt? 64).map (·.map fun _ => 8)

/-- A buffer made longer with zeros, or cut off. -/
def resize (buffer : List UInt8) (length : Nat) : List UInt8 :=
  buffer.take length ++ zeros (length - buffer.length)

/-- Text in a fixed width. The zeros begin where the text was cut. -/
def putFixedAt? (buffer text : List UInt8) (width : Nat) : Option (List UInt8) := do
  let copied ← Text.floorBoundary? text (min text.length width)
  let kept ← slice? text 0 copied
  let behind ← Word.add? (buffer ++ kept).length width
  let length ← Word.sub? behind copied
  return resize (buffer ++ kept) length

/-- The same where sums may be of any size. -/
def putFixed? (buffer text : List UInt8) (width : Nat) : Option (List UInt8) := do
  let copied ← Text.floorBoundary? text (min text.length width)
  let kept ← slice? text 0 copied
  let length ← Word.sub? ((buffer ++ kept).length + width) copied
  return resize (buffer ++ kept) length

/-- Text up to its first NUL, or a NUL behind all of it. -/
def putTerminatedAt? (buffer text : List UInt8) : Option (List UInt8) :=
  match text.findIdx? (· == 0) with
  | some nul => do
    let stop ← Word.add? nul 1
    let kept ← slice? text 0 stop
    return buffer ++ kept
  | none => some (buffer ++ text ++ [0])

/-- The length of bytes that are still to be written, if `behind` asks for it. -/
def putLengthAt? (behind : Bool) (buffer : List UInt8) (copied filled : Nat) :
    Option (List UInt8) :=
  if behind then (Word.add? copied filled).map (buffer ++ Varint.encodeNat ·) else some buffer

/-- Bytes with zeros behind them, and behind their length if `behind` says so. -/
def putRawAt? (field : Field) (behind : Bool) (buffer content : List UInt8) :
    Option (List UInt8) := do
  let (copied, filled) ← field.rawExtentAt? content.length
  let front ← putLengthAt? behind buffer copied filled
  let kept ← slice? content 0 copied
  let length ← Word.add? (front ++ kept).length filled
  return resize (front ++ kept) length

/-- Writes a value behind what the buffer holds. -/
def emitAt? (field : Field) (value : Value) (buffer : List UInt8) :
    Option (Except Misfit (List UInt8)) :=
  match field.tag with
  | .padding => (Word.add? buffer.length field.size).map fun length => .ok (resize buffer length)
  | .fixedText =>
    match value.expectText with
    | .error misfit => some (.error misfit)
    | .ok content => (putFixedAt? buffer (Text.bytes content) field.size).map .ok
  | .text =>
    match value.expectText with
    | .error misfit => some (.error misfit)
    | .ok content =>
      (if field.sized then putFixedAt? buffer (Text.bytes content) field.size
        else putTerminatedAt? buffer (Text.bytes content)).map .ok
  | .raw | .sizedRaw =>
    match value.expectBytes with
    | .error misfit => some (.error misfit)
    | .ok content => (field.putRawAt? (field.tag == .sizedRaw) buffer content).map .ok
  | .bits =>
    (value.expectUnsignedAt? (field.size % 0x100000000)).map
      (·.map fun n => buffer ++ [UInt8.ofNat n.toNat])
  | .scalar .int8 => (value.expectSignedAt? 8).map (·.map fun n => buffer ++ [flippedByte n])
  | .scalar .uint8 =>
    (value.expectUnsignedAt? 8).map (·.map fun n => buffer ++ [UInt8.ofNat n.toNat])
  | .scalar (.int width) =>
    (value.expectSignedAt? width.bits).map (·.map fun n => buffer ++ Varint.encodeSigned n)
  | .scalar (.uint width) =>
    (value.expectUnsignedAt? width.bits).map (·.map fun n => buffer ++ Varint.encodeUnsigned n)
  | .scalar .recordId =>
    (value.expectUnsignedAt? 64).map (·.map fun n => buffer ++ Varint.bigEndian 8 n.toNat)

end Field

namespace Value

/-- The bounds are words, and they are those of the numbers of so many bits. -/
theorem expectSignedAt?_eq (positive : 1 ≤ bits) (few : bits ≤ 64) (value : Value) :
    value.expectSignedAt? bits = some (value.expectSigned bits) := by
  cases value with
  | uint64 | text | bytes => rfl
  | int64 n =>
    have word : (UInt64.size / 2 : Nat) = 9223372036854775808 := rfl
    rw [expectSignedAt?, expectSigned]
    by_cases narrow : bits < 64
    · have place : Word.sub? bits 1 = some (bits - 1) := Word.sub?_of_le positive
      have half := Word.signedBit?_of_lt (show bits - 1 < 63 by omega)
      have bound : Nat.pow 2 (bits - 1) ≤ Nat.pow 2 62 :=
        Nat.pow_le_pow_right (by decide) (by omega)
      have high : Nat.pow 2 62 = 4611686018427387904 := by decide
      have low : 0 < Nat.pow 2 (bits - 1) := Nat.pow_pos (by decide)
      generalize Nat.pow 2 (bits - 1) = reach at half bound low
      have most : Word.subSigned? reach 1 = some (reach - 1 : Int) :=
        Word.subSigned?_of_mem (by omega) (by omega)
      have negated : Word.subSigned? 0 (reach - 1) = some (0 - (reach - 1) : Int) :=
        Word.subSigned?_of_mem (by omega) (by omega)
      have least : Word.subSigned? (0 - (reach - 1)) 1 = some (0 - (reach - 1) - 1 : Int) :=
        Word.subSigned?_of_mem (by omega) (by omega)
      simp only [if_pos narrow, place, half, most, negated, least, Option.bind_eq_bind,
        Option.bind_some]
      by_cases inside : -(reach : Int) ≤ n.toInt ∧ n.toInt < reach
      · rw [if_pos inside, if_neg (by omega)]
        rfl
      · rw [if_neg inside, if_pos (by omega)]
        rfl
    · have whole : bits = 64 := by omega
      have lower := n.le_toInt
      have upper := n.toInt_lt
      have half : (Nat.pow 2 (64 - 1) : Int) = 9223372036854775808 := by decide
      subst whole
      rw [if_neg narrow]
      simp only [half]
      rw [if_pos (by omega)]

theorem expectUnsignedAt?_eq (bits : Nat) (value : Value) :
    value.expectUnsignedAt? bits = some (value.expectUnsigned bits) := by
  cases value with
  | int64 | text | bytes => rfl
  | uint64 n =>
    rw [expectUnsignedAt?, expectUnsigned]
    have low : 0 < Nat.pow 2 bits := Nat.pow_pos (by decide)
    by_cases narrow : bits < 64
    · have most : Word.sub? (Nat.pow 2 bits) 1 = some (Nat.pow 2 bits - 1) := Word.sub?_of_le low
      simp only [if_pos narrow, Word.bit?_of_lt narrow, most, Option.bind_eq_bind, Option.bind_some]
      by_cases inside : n.toNat < Nat.pow 2 bits
      · rw [if_pos inside, if_neg (by omega)]
        rfl
      · rw [if_neg inside, if_pos (by omega)]
        rfl
    · have wide : Nat.pow 2 64 ≤ Nat.pow 2 bits :=
        Nat.pow_le_pow_right (by decide) (Nat.le_of_not_lt narrow)
      rw [if_neg narrow, if_pos (Nat.lt_of_lt_of_le n.toNat_lt wide)]

end Value

theorem IntWidth.bits_bounds (width : IntWidth) : 1 ≤ width.bits ∧ width.bits ≤ 64 := by
  cases width <;> decide

namespace Field

theorem rawExtentAt?_eq (field : Field) (length : Nat) :
    field.rawExtentAt? length = some (field.rawExtent length) := by
  rw [rawExtentAt?, rawExtent]
  by_cases sized : field.sized
  · rw [if_pos sized, if_pos sized]
    by_cases longer : field.size < length
    · rw [if_pos longer, if_pos longer]
    · rw [if_neg longer, if_neg longer, Word.sub?_of_le (Nat.le_of_not_lt longer)]
      rfl
  · rw [if_neg sized, if_neg sized]

/-- What is copied and filled makes up the size where there is one, and all bytes where not. -/
theorem rawExtent_add (field : Field) (length : Nat) :
    (field.rawExtent length).1 + (field.rawExtent length).2 =
      if field.sized then field.size else length := by
  rw [rawExtent]
  split
  · split
    · rfl
    · simp only
      omega
  · rfl

theorem terminatedSizeAt?_eq {bytes : List UInt8} (addressable : Addressable bytes) :
    terminatedSizeAt? bytes = some ((beforeNul bytes).length + 1) := by
  rw [terminatedSizeAt?, length_beforeNul]
  cases found : bytes.findIdx? (· == 0) with
  | none =>
    have bare := List.findIdx_eq_length.mpr (List.findIdx?_eq_none_iff.mp found)
    rw [bare]
    exact Word.add?_of_lt (addressable.word (by omega))
  | some nul =>
    obtain ⟨inside, place⟩ := List.findIdx?_eq_some_iff_findIdx_eq.mp found
    rw [place]
    exact Word.add?_of_lt (addressable.word (by omega))

/-- A length in front, what is copied and what is filled make up a word, since there is no count
for bytes with their length in front. -/
theorem fronted_word {field : Field} (unsized : field.sized = false) {length : Nat}
    (addressable : length < UInt64.size / 2) :
    Varint.sizeNat ((field.rawExtent length).1 + (field.rawExtent length).2) +
      (field.rawExtent length).1 + (field.rawExtent length).2 < UInt64.size := by
  have sum := field.rawExtent_add length
  have half : UInt64.size / 2 + 9 < UInt64.size := by decide
  rw [unsized, if_neg Bool.false_ne_true] at sum
  have front := Varint.sizeNat_le (show length < UInt64.size by omega)
  rw [Varint.maxLength] at front
  rw [Nat.add_assoc, sum]
  omega

theorem rawSizeAt?_eq (field : Field) (behind : Bool)
    (size : field.sized = true → field.size < UInt64.size ∧ behind = false)
    {length : Nat} (addressable : length < UInt64.size / 2) :
    field.rawSizeAt? behind length =
      some (if behind then
        Varint.sizeNat ((field.rawExtent length).1 + (field.rawExtent length).2) +
          (field.rawExtent length).1 + (field.rawExtent length).2
        else (field.rawExtent length).1 + (field.rawExtent length).2) := by
  have sum := field.rawExtent_add length
  have fronted : behind = true → _ := fun asked =>
    field.fronted_word (Bool.eq_false_iff.mpr fun sized => nomatch asked.symm.trans (size sized).2)
      addressable
  rw [rawSizeAt?, rawExtentAt?_eq]
  generalize field.rawExtent length = extent at sum fronted ⊢
  obtain ⟨copied, filled⟩ := extent
  have fits : copied + filled < UInt64.size := by
    split at sum
    · have small := (size ‹_›).1
      simp only at sum
      omega
    · simp only at sum
      omega
  simp only [Option.bind_eq_bind, Option.bind_some, Word.add?_of_lt fits]
  cases behind with
  | false => rfl
  | true =>
    have whole := fronted rfl
    have front : Word.add? (Varint.sizeNat (copied + filled)) copied =
        some (Varint.sizeNat (copied + filled) + copied) :=
      Word.add?_of_lt (Nat.lt_of_le_of_lt (Nat.le_add_right ..) whole)
    simp only [if_true, front, Option.bind_some]
    exact Word.add?_of_lt whole

/-- Nothing stops the sizing of a value, and its size is the one that is found without regard to
words. The number of bits of a bit field has room in half a word. -/
theorem encodedSizeAt?_eq {field : Field} (formed : field.WellFormed)
    (small : field.size < UInt64.size) {value : Value} (addressable : value.Addressable) :
    field.encodedSizeAt? value = some (field.encodedSize value) := by
  obtain ⟨tag, size, sized⟩ := field
  cases tag with
  | padding => rfl
  | fixedText =>
    rw [encodedSizeAt?, encodedSize]
    cases value.expectText <;> rfl
  | text =>
    cases value with
    | int64 | uint64 | bytes => rfl
    | text content =>
      cases sized with
      | true => rfl
      | false =>
        simp only [encodedSizeAt?, encodedSize, Value.expectText, Bool.false_eq_true, if_false,
          terminatedSizeAt?_eq addressable]
        rfl
  | raw =>
    cases value with
    | int64 | uint64 | text => rfl
    | bytes content =>
      have extent := rawSizeAt?_eq ⟨.raw, size, sized⟩ false (fun _ => ⟨small, rfl⟩) addressable
      exact congrArg (Option.map Except.ok) extent
  | sizedRaw =>
    cases value with
    | int64 | uint64 | text => rfl
    | bytes content =>
      have unsized : sized = false := formed
      subst unsized
      have extent := rawSizeAt?_eq ⟨.sizedRaw, size, false⟩ true (absurd · Bool.false_ne_true)
        addressable
      exact congrArg (Option.map Except.ok) extent
  | bits =>
    have few : size ≤ 8 := formed.2
    have half : size % 0x100000000 = size := Nat.mod_eq_of_lt (by omega)
    rw [encodedSizeAt?, encodedSize]
    simp only [half, Value.expectUnsignedAt?_eq]
    cases value.expectUnsigned size <;> rfl
  | scalar scalar =>
    rw [encodedSizeAt?, encodedSize]
    cases scalar with
    | int8 =>
      simp only [Value.expectSignedAt?_eq (show 1 ≤ 8 by decide) (by decide)]
      cases value.expectSigned 8 <;> rfl
    | uint8 =>
      simp only [Value.expectUnsignedAt?_eq]
      cases value.expectUnsigned 8 <;> rfl
    | int width =>
      obtain ⟨positive, few⟩ := width.bits_bounds
      simp only [Value.expectSignedAt?_eq positive few]
      cases value.expectSigned width.bits <;> rfl
    | uint width =>
      simp only [Value.expectUnsignedAt?_eq]
      cases value.expectUnsigned width.bits <;> rfl
    | recordId =>
      simp only [Value.expectUnsignedAt?_eq]
      cases value.expectUnsigned 64 <;> rfl

theorem resize_add (buffer : List UInt8) (more : Nat) :
    resize buffer (buffer.length + more) = buffer ++ zeros more := by
  rw [resize, List.take_of_length_le (Nat.le_add_right ..), Nat.add_sub_cancel_left]

/-- What is kept of a text in a width is cut off from the front of its bytes. -/
theorem slice?_kept (fitting : Text.LongestFitting width chars kept) :
    slice? (Text.utf8 chars) 0 (Text.utf8 kept).length = some (Text.utf8 kept) := by
  have inside : 0 + (Text.utf8 kept).length ≤ (Text.utf8 chars).length := by
    rw [Nat.zero_add]
    exact Text.length_utf8_le fitting.leading
  obtain ⟨rest, rfl⟩ := fitting.leading
  have front := slice?_add inside
  rw [Nat.zero_add, List.drop_zero, Text.utf8_append, List.take_left] at front
  rw [Text.utf8_append, front]

/-- Where sums may be of any size nothing stops the writing of a text, whatever the width and the
buffer are. -/
theorem putFixed?_eq (buffer : List UInt8) (width : Nat) (chars : List Char) :
    putFixed? buffer (Text.utf8 chars) width = some (buffer ++ fixedText width chars) := by
  have fitting := Text.takeFitting_longestFitting width chars
  have cut := Text.floorBoundary?_eq fitting
  have front := slice?_kept fitting
  have fits := fitting.fits
  rw [putFixed?, cut, fixedText]
  generalize Text.takeFitting width chars = kept at front fits ⊢
  have back : Word.sub? ((buffer ++ Text.utf8 kept).length + width) (Text.utf8 kept).length =
      some _ := Word.sub?_of_le (by omega)
  -- The copied bytes are in the length of the buffer already, so they are counted once only.
  have filled : (buffer ++ Text.utf8 kept).length + width - (Text.utf8 kept).length =
      (buffer ++ Text.utf8 kept).length + (width - (Text.utf8 kept).length) := by omega
  simp only [Option.bind_eq_bind, Option.bind_some, front, back, filled, resize_add,
    List.append_assoc]
  rfl

/-- The one sum is a word where the buffer lies in memory afterwards. -/
theorem putFixedAt?_eq_putFixed? {buffer : List UInt8} {chars : List Char}
    (addressable : Addressable (buffer ++ fixedText width chars)) :
    putFixedAt? buffer (Text.utf8 chars) width = putFixed? buffer (Text.utf8 chars) width := by
  have fitting := Text.takeFitting_longestFitting width chars
  have cut := Text.floorBoundary?_eq fitting
  have front := slice?_kept fitting
  have fits := fitting.fits
  rw [Addressable, List.length_append, length_fixedText] at addressable
  have twice : UInt64.size / 2 + UInt64.size / 2 = UInt64.size := by decide
  rw [putFixedAt?, putFixed?, cut]
  generalize Text.takeFitting width chars = kept at front fits ⊢
  have grown : (buffer ++ Text.utf8 kept).length + width < UInt64.size := by
    rw [List.length_append]
    omega
  simp only [Option.bind_eq_bind, Option.bind_some, front, Word.add?_of_lt grown]

theorem putFixedAt?_eq {buffer : List UInt8} (room : buffer.length + width ≤ Record.maxLength)
    (chars : List Char) :
    putFixedAt? buffer (Text.utf8 chars) width = some (buffer ++ fixedText width chars) := by
  have memory : Record.maxLength < UInt64.size / 2 := by decide
  rw [putFixedAt?_eq_putFixed?, putFixed?_eq]
  rw [Addressable, List.length_append, length_fixedText]
  omega

theorem putTerminatedAt?_eq {text : List UInt8} (addressable : Addressable text)
    (buffer : List UInt8) :
    putTerminatedAt? buffer text = some (buffer ++ terminated text) := by
  rw [putTerminatedAt?, terminated, beforeNul_eq]
  cases found : text.findIdx? (· == 0) with
  | none =>
    have bare := List.findIdx_eq_length.mpr (List.findIdx?_eq_none_iff.mp found)
    rw [bare, List.take_length]
    simp
  | some nul =>
    obtain ⟨inside, place⟩ := List.findIdx?_eq_some_iff_findIdx_eq.mp found
    obtain ⟨_, zero, _⟩ := List.findIdx?_eq_some_iff_getElem.mp found
    have stop : Word.add? nul 1 = some (nul + 1) := Word.add?_of_lt (addressable.word (by omega))
    have front := slice?_add (show 0 + (nul + 1) ≤ text.length by omega)
    rw [Nat.zero_add, List.drop_zero, List.take_succ_eq_append_getElem inside,
      beq_iff_eq.mp zero] at front
    simp only [stop, front, place, Option.bind_eq_bind, Option.bind_some]
    rfl

/-- What is written of bytes. -/
def rawBytes (field : Field) (behind : Bool) (content : List UInt8) : List UInt8 :=
  let (copied, filled) := field.rawExtent content.length
  (if behind then Varint.encodeNat (copied + filled) else []) ++ content.take copied ++ zeros filled

theorem putRawAt?_eq (field : Field) (behind : Bool) (buffer content : List UInt8)
    (room : buffer.length + (field.rawBytes behind content).length < UInt64.size) :
    field.putRawAt? behind buffer content = some (buffer ++ field.rawBytes behind content) := by
  have within := field.rawExtent_le content.length
  rw [putRawAt?, rawExtentAt?_eq, rawBytes]
  rw [rawBytes] at room
  generalize field.rawExtent content.length = extent at room within ⊢
  obtain ⟨copied, filled⟩ := extent
  dsimp only at room within ⊢
  rw [List.length_append, List.length_append, length_zeros, List.length_take_of_le within] at room
  have kept := slice?_add (show 0 + copied ≤ content.length by omega)
  rw [Nat.zero_add, List.drop_zero] at kept
  have opened : putLengthAt? behind buffer copied filled =
      some (buffer ++ if behind then Varint.encodeNat (copied + filled) else []) := by
    cases behind with
    | false => simp [putLengthAt?]
    | true => simp [putLengthAt?, Word.add?_of_lt (show copied + filled < UInt64.size by omega)]
  generalize (if behind then Varint.encodeNat (copied + filled) else []) = front at room opened ⊢
  have grown : (buffer ++ front ++ content.take copied).length + filled < UInt64.size := by
    rw [List.length_append, List.length_append, List.length_take_of_le within]
    omega
  simp only [Option.bind_eq_bind, Option.bind_some, opened, kept, Word.add?_of_lt grown, resize_add]
  simp only [List.append_assoc]
  rfl

/-- Nothing stops the writing of a value that has room in a record. -/
theorem emitAt?_eq {field : Field} (formed : field.WellFormed) {value : Value}
    (addressable : value.Addressable) {buffer : List UInt8}
    (room : ∀ bytes, field.encode value = .ok bytes →
      buffer.length + bytes.length ≤ Record.maxLength) :
    field.emitAt? value buffer = some ((field.encode value).map (buffer ++ ·)) := by
  have word : Record.maxLength + Record.maxLength < UInt64.size := by decide
  obtain ⟨tag, size, sized⟩ := field
  cases tag with
  | padding =>
    have fits := room (zeros size) rfl
    rw [length_zeros] at fits
    rw [emitAt?]
    simp only [Word.add?_of_lt (show buffer.length + size < UInt64.size by omega),
      Option.map_some, resize_add]
    rfl
  | fixedText =>
    cases value with
    | int64 | uint64 | bytes => rfl
    | text content =>
      have fits := room (fixedText size content.toList) rfl
      rw [length_fixedText] at fits
      exact congrArg (Option.map Except.ok) (putFixedAt?_eq fits content.toList)
  | text =>
    cases value with
    | int64 | uint64 | bytes => rfl
    | text content =>
      cases sized with
      | true =>
        have fits := room (fixedText size content.toList) rfl
        rw [length_fixedText] at fits
        exact congrArg (Option.map Except.ok) (putFixedAt?_eq fits content.toList)
      | false => exact congrArg (Option.map Except.ok) (putTerminatedAt?_eq addressable buffer)
  | raw =>
    cases value with
    | int64 | uint64 | text => rfl
    | bytes content =>
      have fits := room (rawBytes ⟨.raw, size, sized⟩ false content) rfl
      exact congrArg (Option.map Except.ok) (putRawAt?_eq _ false buffer content (by omega))
  | sizedRaw =>
    cases value with
    | int64 | uint64 | text => rfl
    | bytes content =>
      have fits := room (rawBytes ⟨.sizedRaw, size, sized⟩ true content) rfl
      exact congrArg (Option.map Except.ok) (putRawAt?_eq _ true buffer content (by omega))
  | bits =>
    have few : size ≤ 8 := formed.2
    have half : size % 0x100000000 = size := Nat.mod_eq_of_lt (by omega)
    rw [emitAt?, encode]
    simp only [half, Value.expectUnsignedAt?_eq]
    cases value.expectUnsigned size <;> rfl
  | scalar scalar =>
    rw [emitAt?, encode]
    cases scalar with
    | int8 =>
      simp only [Value.expectSignedAt?_eq (show 1 ≤ 8 by decide) (by decide)]
      cases value.expectSigned 8 <;> rfl
    | uint8 =>
      simp only [Value.expectUnsignedAt?_eq]
      cases value.expectUnsigned 8 <;> rfl
    | int width =>
      obtain ⟨positive, few⟩ := width.bits_bounds
      simp only [Value.expectSignedAt?_eq positive few]
      cases value.expectSigned width.bits <;> rfl
    | uint width =>
      simp only [Value.expectUnsignedAt?_eq]
      cases value.expectUnsigned width.bits <;> rfl
    | recordId =>
      simp only [Value.expectUnsignedAt?_eq]
      cases value.expectUnsigned 64 <;> rfl

end Field

end OrderPack
