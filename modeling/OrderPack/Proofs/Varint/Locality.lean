import OrderPack.Proofs.Varint.Canonical
import OrderPack.Proofs.Varint.Extension

/-! Decoding whatever stands at an offset of a buffer, or finding the offset behind its end. The
lead byte and the bytes that it calls for settle what is decoded, so it does not change with
the bytes around them, and without the last of them it is incomplete. Damage is seen in the
same bytes, and stays as it is when others follow. -/
namespace OrderPack.Varint

/-- What is decoded is settled by a lead byte and the bytes that it calls for. -/
def Settled (decode : Reader → Except Error (α × Reader)) : Prop :=
  ∀ reader x after, decode reader = .ok (x, after) →
    ∃ c first digits, Passes reader after c first digits ∧
      ∀ again next, Passes again next c first digits → decode again = .ok (x, next)

/-- Decoding at an offset of a buffer: `decode` with the bytes from there, and `decodeAt?` with
the whole buffer in the arithmetic of words. -/
structure Local (decode : Reader → Except Error (α × Reader))
    (decodeAt? : List UInt8 → Nat → Option (Except Error (α × Reader)))
    (buffer : List UInt8) (cursor : Nat) : Prop where
  /-- No sum or difference is out of range, and no byte is looked for outside the buffer. -/
  unstopped : Addressable buffer →
    decodeAt? buffer cursor = some (decode (Reader.ofBuffer buffer cursor))
  answered : (∃ x after, decode (Reader.ofBuffer buffer cursor) = .ok (x, after)) ∨
    Starved (decode (Reader.ofBuffer buffer cursor)) ∨
    Corrupt (decode (Reader.ofBuffer buffer cursor))
  /-- What is decoded lies in the buffer and has no more bytes than an encoding may have. -/
  inside : ∀ x after, decode (Reader.ofBuffer buffer cursor) = .ok (x, after) →
    after = Reader.ofBuffer buffer after.offset ∧
      cursor < after.offset ∧ after.offset ≤ buffer.length ∧ after.offset - cursor ≤ maxLength
  /-- Another buffer may differ from the first before and behind it. -/
  elsewhere : ∀ x after, decode (Reader.ofBuffer buffer cursor) = .ok (x, after) →
    ∀ other : List UInt8, (∀ i, cursor ≤ i → i < after.offset → other[i]? = buffer[i]?) →
      decode (Reader.ofBuffer other cursor) = .ok (x, Reader.ofBuffer other after.offset)
  /-- Without its last byte it is incomplete. -/
  cut : ∀ x after, decode (Reader.ofBuffer buffer cursor) = .ok (x, after) →
    ∀ stop, cursor ≤ stop → stop < after.offset →
      Starved (decode (Reader.ofBuffer (buffer.take stop) cursor))
  /-- More bytes do not mend what is at fault. -/
  damaged : Corrupt (decode (Reader.ofBuffer buffer cursor)) → ∀ suffix,
    decode (Reader.ofBuffer (buffer ++ suffix) cursor) = decode (Reader.ofBuffer buffer cursor)

theorem decodeUnsigned_settled : Settled decodeUnsigned := by
  intro reader x after read
  obtain ⟨c, first, digits, passes, number⟩ := passes_of_decodeUnsigned read
  refine ⟨c, first, digits, passes, ?_⟩
  intro again next passesAgain
  have positive : 0 ≤ c.number first digits := by
    rw [number]
    exact Int.natCast_nonneg _
  rcases decodeNat_of_passes passesAgain positive with ⟨_, found⟩ | ⟨large, _⟩
  · rw [number, Int.toNat_natCast] at found
    rw [decodeUnsigned, found]
    simp only [bind, Except.bind, UInt64.ofNat_toNat]
  · have word := x.toNat_lt
    omega

theorem decodeSigned_settled : Settled decodeSigned := by
  intro reader x after read
  obtain ⟨c, first, digits, passes, small, rfl⟩ := passes_of_decodeSigned read
  refine ⟨c, first, digits, passes, ?_⟩
  intro again next passesAgain
  rcases decodeSigned_of_passes passesAgain with ⟨_, found⟩ | ⟨large, _⟩
  · exact found
  · omega

/-- The lead byte calls for no more than a whole word. -/
theorem Whole.length_le {c : Class} {first : UInt8} {digits : List UInt8}
    (whole : Whole c first digits) : digits.length ≤ 8 := by
  have mark := Class.mark_of_ofLead? whole.known
  have length := whole.length
  cases c with
  | longNegative =>
    obtain ⟨_, due⟩ := Class.of_payloadLength?_longNegative length
    simp only at mark
    omega
  | long =>
    obtain ⟨_, due⟩ := Class.of_payloadLength?_long length
    omega
  | mediumNegative | shortNegative | short | medium =>
    have few := Option.some.inj length
    omega

namespace Passes
variable {buffer : List UInt8} {cursor : Nat} {after : Reader} {c : Class} {first : UInt8}
  {digits : List UInt8}

theorem inside (passes : Passes (Reader.ofBuffer buffer cursor) after c first digits) :
    after = Reader.ofBuffer buffer after.offset ∧ cursor < after.offset ∧
      after.offset ≤ buffer.length ∧ after.offset - cursor ≤ maxLength := by
  have most := passes.length_le
  have offset : after.offset = cursor + (1 + digits.length) := passes.offset
  have bytes : buffer.drop cursor = (first :: digits) ++ after.rest := passes.bytes
  have length := congrArg List.length bytes
  have rest : buffer.drop after.offset = after.rest := by
    have count : 1 + digits.length = (first :: digits).length := by
      rw [List.length_cons, Nat.add_comm]
    rw [offset, ← List.drop_drop, bytes, count, List.drop_left]
  rw [List.length_drop, List.length_append, List.length_cons] at length
  refine ⟨?_, by omega, by omega, by rw [maxLength]; omega⟩
  rw [Reader.ofBuffer, rest]

/-- The same bytes stand in each buffer that has them there. -/
theorem elsewhere (passes : Passes (Reader.ofBuffer buffer cursor) after c first digits)
    {other : List UInt8}
    (same : ∀ i, cursor ≤ i → i < after.offset → other[i]? = buffer[i]?) :
    Passes (Reader.ofBuffer other cursor) (Reader.ofBuffer other after.offset) c first digits := by
  obtain ⟨_, before, _, _⟩ := passes.inside
  have taken : (other.drop cursor).take (after.offset - cursor) = first :: digits := by
    rw [← passes.extract, List.extract_eq_take_drop]
    apply List.ext_getElem?
    intro i
    by_cases near : i < after.offset - cursor
    · rw [List.getElem?_take_of_lt near, List.getElem?_take_of_lt near, List.getElem?_drop,
        List.getElem?_drop]
      exact same _ (Nat.le_add_right cursor i) (by omega)
    · rw [List.getElem?_take_eq_none (Nat.le_of_not_lt near),
        List.getElem?_take_eq_none (Nat.le_of_not_lt near)]
  have rest : other.drop after.offset = (other.drop cursor).drop (after.offset - cursor) := by
    rw [List.drop_drop, Nat.add_sub_cancel' (Nat.le_of_lt before)]
  refine ⟨passes.toWhole, ?_, passes.offset⟩
  rw [Reader.rest_ofBuffer, Reader.rest_ofBuffer, rest, ← List.cons_append, ← taken,
    List.take_append_drop]

end Passes

/-- The place of an offset in a longer buffer, if there was such a place. -/
theorem ofBuffer_append {buffer : List UInt8} (inside : cursor ≤ buffer.length)
    (suffix : List UInt8) :
    Reader.ofBuffer (buffer ++ suffix) cursor =
      (Reader.ofBuffer buffer cursor).followedBy suffix := by
  rw [Reader.ofBuffer, List.drop_append_of_le_length inside]
  rfl

theorem answered (answer : Except Error (α × Reader)) :
    (∃ x after, answer = .ok (x, after)) ∨ Starved answer ∨ Corrupt answer := by
  cases answer with
  | ok pair => exact .inl ⟨pair.1, pair.2, rfl⟩
  | error error =>
    cases error with
    | truncated lack => exact .inr (.inl ⟨lack, rfl⟩)
    | payloadTooLong | wordOverflow | notUnsigned | tooManyDropped | beyondSigned =>
      exact .inr (.inr ⟨_, rfl, rfl⟩)

/-- The same bytes are not found at fault and incomplete. -/
theorem Corrupt.not_starved {answer : Except Error α} (corrupt : Corrupt answer) :
    ¬Starved answer := by
  obtain ⟨error, rfl, kind⟩ := corrupt
  rintro ⟨lack, ⟨⟩⟩
  cases kind

section Extended
variable {decode : Reader → Except Error (α × Reader)} {buffer : List UInt8} {cursor : Nat}
  (extended : ∀ reader suffix,
    Extends suffix (decode reader) (decode (Reader.followedBy reader suffix)))
include extended

/-- If the front of a buffer were enough, the whole buffer would be read no further. -/
theorem Settled.starved_of_cut (settled : Settled decode) {x : α} {after : Reader}
    (read : decode (Reader.ofBuffer buffer cursor) = .ok (x, after))
    (behind : cursor ≤ stop) (before : stop < after.offset) :
    Starved (decode (Reader.ofBuffer (buffer.take stop) cursor)) := by
  obtain ⟨c, first, digits, passes, _⟩ := settled _ _ _ read
  obtain ⟨_, _, within, _⟩ := passes.inside
  have length : (buffer.take stop).length = stop := by
    rw [List.length_take]
    omega
  have whole : Reader.ofBuffer buffer cursor =
      (Reader.ofBuffer (buffer.take stop) cursor).followedBy (buffer.drop stop) := by
    rw [← ofBuffer_append (by omega), List.take_append_drop]
  apply Classical.byContradiction
  intro fed
  have again := extended _ (buffer.drop stop) fed
  rw [← whole, read] at again
  cases front : decode (Reader.ofBuffer (buffer.take stop) cursor) with
  | error error =>
    rw [front] at again
    cases again
  | ok pair =>
    obtain ⟨y, next⟩ := pair
    obtain ⟨_, _, _, passesFront, _⟩ := settled _ _ _ front
    obtain ⟨_, _, short, _⟩ := passesFront.inside
    rw [front] at again
    cases again
    rw [length] at short
    exact absurd short (Nat.not_le.mpr before)

theorem damage_kept
    (empty : ∀ offset, Starved (decode ⟨offset, []⟩))
    (corrupt : Corrupt (decode (Reader.ofBuffer buffer cursor))) (suffix : List UInt8) :
    decode (Reader.ofBuffer (buffer ++ suffix) cursor) =
      decode (Reader.ofBuffer buffer cursor) := by
  have inside : cursor ≤ buffer.length := by
    apply Nat.le_of_not_lt
    intro beyond
    rw [Reader.ofBuffer, List.drop_eq_nil_of_le (Nat.le_of_lt beyond)] at corrupt
    exact corrupt.not_starved (empty cursor)
  rw [ofBuffer_append inside, extended _ suffix corrupt.not_starved]
  obtain ⟨error, failed, _⟩ := corrupt
  rw [failed]
  rfl

theorem Settled.decodes_locally (settled : Settled decode)
    (empty : ∀ offset, Starved (decode ⟨offset, []⟩))
    {decodeAt? : List UInt8 → Nat → Option (Except Error (α × Reader))}
    (unstopped : Addressable buffer →
      decodeAt? buffer cursor = some (decode (Reader.ofBuffer buffer cursor))) :
    Local decode decodeAt? buffer cursor where
  unstopped := unstopped
  answered := answered _
  inside x after read := by
    obtain ⟨c, first, digits, passes, _⟩ := settled _ _ _ read
    exact passes.inside
  elsewhere x after read other same := by
    obtain ⟨c, first, digits, passes, again⟩ := settled _ _ _ read
    exact again _ _ (passes.elsewhere same)
  cut x after read stop behind before := settled.starved_of_cut extended read behind before
  damaged corrupt suffix := damage_kept extended empty corrupt suffix

end Extended

/-- Both decoders answer at every offset of every buffer, and what they answer depends only on
the bytes from there to where they stop. -/
theorem decoded_locally (buffer : List UInt8) (cursor : Nat) :
    Local decodeUnsigned decodeUnsignedAt? buffer cursor ∧
    Local decodeSigned decodeSignedAt? buffer cursor := by
  constructor
  · apply decodeUnsigned_settled.decodes_locally decodeUnsigned_extends
    · exact fun offset => ⟨⟨offset, 1⟩, rfl⟩
    · exact fun addressable => decodeUnsignedAt?_eq addressable cursor
  · apply decodeSigned_settled.decodes_locally decodeSigned_extends
    · exact fun offset => ⟨⟨offset, 1⟩, rfl⟩
    · exact fun addressable => decodeSignedAt?_eq addressable cursor

end OrderPack.Varint
