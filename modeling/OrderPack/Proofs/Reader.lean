import OrderPack.Reader

/-! Reading from the front of a row of bytes takes just what stands there and leaves
the rest, whatever that is.

The same can be done with a whole buffer and an offset into it, in the arithmetic of machine
words. There a sum or a difference may be out of range and a row of bytes may not lie within
the buffer, and any of these stops the program; it is `none` here. What is asked for is
checked before it is taken, so nothing stops the reading. -/
namespace OrderPack

namespace Word

/-- The sum of two words, unless it is too large for one. -/
def add? (a b : Nat) : Option Nat := if a + b < UInt64.size then some (a + b) else none

/-- The difference of two words, unless it is negative. -/
def sub? (a b : Nat) : Option Nat := if b ≤ a then some (a - b) else none

/-- The product of two words, unless it is too large for one. -/
def mul? (a b : Nat) : Option Nat := if a * b < UInt64.size then some (a * b) else none

/-- The sum of two signed words, unless it is too large or too small for one. -/
def addSigned? (a b : Int) : Option Int :=
  if -(UInt64.size / 2 : Nat) ≤ a + b ∧ a + b < (UInt64.size / 2 : Nat) then some (a + b) else none

/-- The difference of two signed words, unless it is too large or too small for one. -/
def subSigned? (a b : Int) : Option Int := addSigned? a (-b)

/-- One, moved up to a place of a word. -/
def bit? (place : Nat) : Option Nat := if place < 64 then some (Nat.pow 2 place) else none

/-- One, moved up to a place of a signed word. The highest place is that of the sign. -/
def signedBit? (place : Nat) : Option Int :=
  if place < 64 then some (Int64.ofInt (Nat.pow 2 place)).toInt else none

theorem add?_of_lt (fits : a + b < UInt64.size) : add? a b = some (a + b) := if_pos fits

theorem sub?_of_le (fits : b ≤ a) : sub? a b = some (a - b) := if_pos fits

theorem mul?_bind_add? (a b c : Nat) :
    (mul? a b).bind (add? · c) = if a * b + c < UInt64.size then some (a * b + c) else none := by
  by_cases product : a * b < UInt64.size
  · rw [mul?, if_pos product]
    rfl
  · have sum : ¬a * b + c < UInt64.size := fun fits =>
      product (Nat.lt_of_le_of_lt (Nat.le_add_right ..) fits)
    rw [mul?, if_neg product, if_neg sum]
    rfl

theorem addSigned?_of_mem {a b : Int} (lower : -(UInt64.size / 2 : Nat) ≤ a + b)
    (upper : a + b < (UInt64.size / 2 : Nat)) : addSigned? a b = some (a + b) :=
  if_pos ⟨lower, upper⟩

theorem subSigned?_of_mem {a b : Int} (lower : -(UInt64.size / 2 : Nat) ≤ a - b)
    (upper : a - b < (UInt64.size / 2 : Nat)) : subSigned? a b = some (a - b) :=
  addSigned?_of_mem lower upper

theorem bit?_of_lt (inside : place < 64) : bit? place = some (Nat.pow 2 place) := if_pos inside

/-- Below the sign there is room for the number itself. -/
theorem signedBit?_of_lt (inside : place < 63) :
    signedBit? place = some ((Nat.pow 2 place : Nat) : Int) := by
  have most : Nat.pow 2 place ≤ Nat.pow 2 62 :=
    Nat.pow_le_pow_right (by decide) (Nat.le_of_lt_succ inside)
  have small : Nat.pow 2 62 = 4611686018427387904 := by decide
  have word : (Int64.ofInt (Nat.pow 2 place : Nat)).toInt = (Nat.pow 2 place : Nat) :=
    Int64.toInt_ofInt_of_le (by omega) (by omega)
  rw [signedBit?, if_pos (Nat.lt_succ_of_lt inside), word]

end Word

/-- No buffer takes more than half of all addresses. -/
def Addressable (buffer : List UInt8) : Prop := buffer.length < UInt64.size / 2

instance (buffer : List UInt8) : Decidable (Addressable buffer) :=
  inferInstanceAs (Decidable (buffer.length < UInt64.size / 2))

/-- Sums that stay near the buffer are words. -/
theorem Addressable.word {buffer : List UInt8} (addressable : Addressable buffer)
    (near : n ≤ buffer.length + 9) : n < UInt64.size := by
  simp only [Addressable, UInt64.size] at addressable ⊢
  omega

/-- The bytes of a buffer from one offset up to another, unless they do not lie within it. -/
def slice? (buffer : List UInt8) (start stop : Nat) : Option (List UInt8) :=
  if start ≤ stop ∧ stop ≤ buffer.length then some ((buffer.drop start).take (stop - start))
  else none

theorem slice?_add {buffer : List UInt8} (inside : start + count ≤ buffer.length) :
    slice? buffer start (start + count) = some ((buffer.drop start).take count) := by
  rw [slice?, if_pos ⟨Nat.le_add_right start count, inside⟩, Nat.add_sub_cancel_left]

theorem slice?_of_lt {buffer : List UInt8} (beyond : buffer.length < stop) :
    slice? buffer start stop = none :=
  if_neg fun inside => Nat.not_le_of_lt beyond inside.2

namespace Reader

theorem take_append (offset : Nat) (front rest : List UInt8) :
    take ⟨offset, front ++ rest⟩ front.length = .ok (front, ⟨offset + front.length, rest⟩) := by
  rw [take, if_pos (by simp), List.take_left, List.drop_left]

@[simp] theorem offset_ofBuffer (buffer : List UInt8) (offset : Nat) :
    (ofBuffer buffer offset).offset = offset := rfl

@[simp] theorem rest_ofBuffer (buffer : List UInt8) (offset : Nat) :
    (ofBuffer buffer offset).rest = buffer.drop offset := rfl

theorem ofBuffer_append (before rest : List UInt8) :
    ofBuffer (before ++ rest) before.length = ⟨before.length, rest⟩ := by
  rw [ofBuffer, List.drop_left]

theorem take_ofBuffer {buffer : List UInt8} (inside : start + count ≤ buffer.length) :
    (ofBuffer buffer start).take count =
      .ok ((buffer.drop start).take count, ofBuffer buffer (start + count)) := by
  have enough : count ≤ (ofBuffer buffer start).rest.length := by
    rw [rest_ofBuffer, List.length_drop]
    omega
  rw [take, if_pos enough]
  simp only [ofBuffer, List.drop_drop]

theorem take_ofBuffer_short {buffer : List UInt8} (beyond : buffer.length < start + count)
    (inside : start ≤ buffer.length) :
    (ofBuffer buffer start).take count =
      .error ⟨start, count - (buffer.length - start)⟩ := by
  have short : ¬count ≤ (ofBuffer buffer start).rest.length := by
    rw [rest_ofBuffer, List.length_drop]
    omega
  rw [take, if_neg short]
  simp

/-- The next bytes at an offset of a buffer. Where they would end may be out of range too,
so this is found out before it is added up; what is missing is the difference between two
differences. -/
def takeAt? (buffer : List UInt8) (start count : Nat) :
    Option (Except Shortage (List UInt8 × Reader)) :=
  match (Word.add? start count).bind (slice? buffer start) with
  | some bytes => do
    let stop ← Word.add? start count
    return .ok (bytes, ofBuffer buffer stop)
  | none => do
    let left ← Word.sub? buffer.length start
    let missing ← Word.sub? count left
    return .error ⟨start, missing⟩

theorem takeAt?_eq {buffer : List UInt8} (addressable : Addressable buffer)
    (inside : start ≤ buffer.length) (count : Nat) :
    takeAt? buffer start count = some ((ofBuffer buffer start).take count) := by
  by_cases enough : start + count ≤ buffer.length
  · have word : start + count < UInt64.size :=
      addressable.word (Nat.le_trans enough (Nat.le_add_right _ 9))
    simp only [takeAt?, Word.add?_of_lt word, Option.bind_some, slice?_add enough,
      take_ofBuffer enough]
    rfl
  · have beyond : buffer.length < start + count := Nat.lt_of_not_le enough
    have none : (Word.add? start count).bind (slice? buffer start) = none := by
      rw [Word.add?]
      split
      · exact slice?_of_lt beyond
      · rfl
    have short : buffer.length - start ≤ count := by omega
    simp only [takeAt?, none, Word.sub?_of_le inside, Option.bind_eq_bind, Option.bind_some,
      Word.sub?_of_le short, take_ofBuffer_short beyond inside]
    rfl

/-- A place in the same bytes that is not before the first. -/
def Onward (reader after : Reader) : Prop :=
  ∃ count, count ≤ reader.rest.length ∧
    after = ⟨reader.offset + count, reader.rest.drop count⟩

theorem Onward.refl (reader : Reader) : Onward reader reader := ⟨0, Nat.zero_le _, rfl⟩

theorem Onward.trans {reader middle after : Reader} (first : Onward reader middle)
    (second : Onward middle after) : Onward reader after := by
  obtain ⟨passed, enough, rfl⟩ := first
  obtain ⟨further, more, rfl⟩ := second
  rw [List.length_drop] at more
  refine ⟨passed + further, by omega, ?_⟩
  rw [List.drop_drop, Nat.add_assoc]

theorem Onward.of_take {reader after : Reader} {bytes : List UInt8}
    (took : reader.take count = .ok (bytes, after)) : Onward reader after := by
  rw [take] at took
  split at took
  · cases took
    exact ⟨count, ‹_›, rfl⟩
  · cases took

/-- What lies onward from a place in a buffer is a place in that buffer. -/
theorem Onward.ofBuffer {buffer : List UInt8} {after : Reader}
    (onward : Onward (ofBuffer buffer start) after) (inside : start ≤ buffer.length) :
    after = Reader.ofBuffer buffer after.offset ∧ start ≤ after.offset ∧
      after.offset ≤ buffer.length := by
  obtain ⟨count, enough, rfl⟩ := onward
  rw [rest_ofBuffer, List.length_drop] at enough
  refine ⟨?_, Nat.le_add_right start count, ?_⟩
  · simp [Reader.ofBuffer]
  · change start + count ≤ buffer.length
    omega

end Reader

end OrderPack
