import OrderPack.Proofs.Descriptor.Addressing
import OrderPack.Proofs.Record.Emission

/-! Packing in the arithmetic of machine words. Both walks count the fields, and there can be more
of them than bytes in the descriptor; but each field that a count repeats adds a byte to the
record, so that the fields are no more than the bytes of both. The sizing keeps the record in
bounds and ends before a sum is out of range, and the writing knows from the sizing how much is
still to come. -/
namespace OrderPack

/-- A scalar takes a byte at least. -/
theorem Field.Spells.scalar_pos {scalar : Scalar} {value : Value} {bytes : List UInt8}
    (spelt : (Field.ofScalar scalar).Spells value bytes) : 1 ≤ bytes.length := by
  cases scalar with
  | int8 | uint8 =>
    obtain ⟨n, _, _, rfl⟩ := spelt
    exact Nat.le_of_eq (Varint.length_bigEndian 1 _).symm
  | int width =>
    obtain ⟨n, _, _, rfl⟩ := spelt
    rw [Varint.encodeSigned_eq_encodeInt]
    exact (Varint.length_encodeInt_bounds (Varint.inWord_toInt n)).1
  | uint width =>
    obtain ⟨n, _, _, rfl⟩ := spelt
    rw [Varint.encodeUnsigned_eq_encodeInt]
    exact (Varint.length_encodeInt_bounds (Varint.inWord_toNat n)).1
  | recordId =>
    obtain ⟨n, _, rfl⟩ := spelt
    rw [Varint.length_bigEndian]
    decide

theorem Field.scalar_size_pos {scalar : Scalar} {value : Value} {size : Nat}
    (sized : (Field.ofScalar scalar).encodedSize value = .ok size) : 1 ≤ size := by
  rw [encodedSize_eq] at sized
  cases written : (Field.ofScalar scalar).encode value with
  | error misfit =>
    rw [written] at sized
    cases sized
  | ok bytes =>
    rw [written] at sized
    cases sized
    exact (encode_eq_ok_iff.mp written).scalar_pos

namespace Record

/-- A count of fields is a word if the fields are no more than the bytes of a record and those of
a descriptor. -/
theorem counter_word {bytes : List UInt8} (addressable : Addressable bytes)
    (counted : field ≤ total + place) (bounded : total ≤ maxLength)
    (inside : place ≤ bytes.length) : field + 1 < UInt64.size := by
  have word : maxLength + UInt64.size / 2 < UInt64.size := by decide
  rw [Addressable] at addressable
  omega

/-- How far the sizing has come, with the place of the next value. -/
structure SizingAt where
  argument : Nat
  field : Nat
  total : Nat

namespace SizingAt

/-- The same with the values themselves. -/
def view (values : List Value) (state : SizingAt) : Sizing :=
  ⟨values.drop state.argument, state.field, state.total⟩

/-- Counts the bytes of one more field. A sum that is no word is too long as well. -/
def growAt? (state : SizingAt) (argument size : Nat) : Option (Except PackError SizingAt) :=
  match (Word.add? state.total size).filter (· ≤ maxLength) with
  | none => some (.error (.tooLong state.field))
  | some total => do
    let field ← Word.add? state.field 1
    return .ok ⟨argument, field, total⟩

/-- Passes one field. -/
def stepAt? (values : List Value) (state : SizingAt) (field : Field) :
    Option (Except PackError SizingAt) :=
  if field.holdsValue then
    match values[state.argument]? with
    | none => some (.error (.missing state.field values.length))
    | some value => do
      let argument ← Word.add? state.argument 1
      match ← field.encodedSizeAt? value with
      | .error misfit => return .error (.misfit state.field field.tag misfit)
      | .ok size => state.growAt? argument size
  else state.growAt? state.argument field.size

/-- What the sizing has come to at a place of the descriptor, with these fields ahead. -/
structure Reached (place : Nat) (fields : List Field) (state : SizingAt) : Prop where
  formed : ∀ field ∈ fields, field.WellFormed
  words : ∀ field ∈ fields, field.size < UInt64.size
  taken : state.argument ≤ state.field
  counted : state.field ≤ state.total + place
  bounded : state.total ≤ maxLength

theorem growAt?_eq {state : SizingAt} (counter : state.field + 1 < UInt64.size)
    (argument size : Nat) :
    state.growAt? argument size =
      some (if state.total + size ≤ maxLength then
          .ok ⟨argument, state.field + 1, state.total + size⟩
        else .error (.tooLong state.field)) := by
  have word : maxLength < UInt64.size := by decide
  rw [growAt?]
  by_cases fits : state.total + size ≤ maxLength
  · have sum : (Word.add? state.total size).filter (· ≤ maxLength) = some (state.total + size) := by
      rw [Word.add?_of_lt (Nat.lt_of_le_of_lt fits word), Option.filter_some,
        if_pos (decide_eq_true fits)]
    rw [sum, if_pos fits]
    simp only [Word.add?_of_lt counter]
    rfl
  · have none : (Word.add? state.total size).filter (· ≤ maxLength) = none := by
      rw [Word.add?]
      split
      · rw [Option.filter_some, if_neg (by simpa using fits)]
      · rfl
    rw [none, if_neg fits]

section Step
variable {values : List Value} {bytes : List UInt8} {place later argument size : Nat}
  {field : Field} {fields : List Field} {state : SizingAt}

/-- One more field is counted, and it has taken up a byte of the descriptor or of the record. -/
theorem Reached.grow (reached : Reached place (field :: fields) state)
    (addressable : Addressable bytes) (inside : place ≤ bytes.length)
    (paid : place < later ∨ later = place ∧ 1 ≤ size) (next : argument ≤ state.argument + 1) :
    ∃ answer, state.growAt? argument size = some answer ∧
      answer.map (view values) = (state.view values).grow (values.drop argument) size ∧
      ∀ grown, answer = .ok grown → Reached later fields grown := by
  have counted := reached.counted
  have taken := reached.taken
  rw [growAt?_eq (counter_word addressable counted reached.bounded inside), Sizing.grow]
  by_cases bounded : state.total + size ≤ maxLength
  · rw [if_pos bounded]
    refine ⟨_, rfl, (if_pos bounded).symm, ?_⟩
    rintro _ ⟨⟩
    refine ⟨fun one ahead => reached.formed one (.tail _ ahead),
      fun one ahead => reached.words one (.tail _ ahead), ?_, ?_, bounded⟩
    · simp only
      omega
    · simp only
      omega
  · rw [if_neg bounded]
    refine ⟨_, rfl, (if_neg bounded).symm, ?_⟩
    rintro _ ⟨⟩

end Step

/-- Nothing stops the sizing of a field. -/
theorem steps {bytes : List UInt8} (addressable : Addressable bytes) {values : List Value}
    (held : ∀ value ∈ values, value.Addressable) :
    Bookmark.Steps bytes (stepAt? values) (Sizing.step values.length) (view values) Reached := by
  intro place later field fields state reached onward inside
  have behind : place ≤ bytes.length := by omega
  rw [stepAt?, Sizing.step]
  by_cases holds : field.holdsValue
  · rw [if_pos holds, if_pos holds]
    cases here : values[state.argument]? with
    | none =>
      have none : (state.view values).values = [] :=
        List.drop_eq_nil_of_le (List.getElem?_eq_none_iff.mp here)
      rw [none]
      refine ⟨_, rfl, rfl, ?_⟩
      rintro _ ⟨⟩
    | some value =>
      obtain ⟨within, rfl⟩ := List.getElem?_eq_some_iff.mp here
      have left : (state.view values).values =
          values[state.argument] :: values.drop (state.argument + 1) :=
        List.drop_eq_getElem_cons within
      have argument : Word.add? state.argument 1 = some (state.argument + 1) := by
        apply Word.add?_of_lt
        have taken := reached.taken
        have counter := counter_word addressable reached.counted reached.bounded behind
        omega
      have sized := Field.encodedSizeAt?_eq (reached.formed field (.head _))
        (reached.words field (.head _)) (held _ (List.getElem_mem within))
      rw [left]
      simp only [argument, sized, Option.bind_eq_bind, Option.bind_some]
      cases size : field.encodedSize values[state.argument] with
      | error misfit =>
        refine ⟨_, rfl, rfl, ?_⟩
        rintro _ ⟨⟩
      | ok size =>
        apply reached.grow addressable behind _ (Nat.le_refl _)
        rcases onward with further | ⟨same, scalar, rfl⟩
        · exact .inl further
        · exact .inr ⟨same, Field.scalar_size_pos size⟩
  · rw [if_neg holds, if_neg holds]
    apply reached.grow addressable behind _ (Nat.le_succ _)
    rcases onward with further | ⟨_, scalar, rfl⟩
    · exact .inl further
    · exact absurd rfl holds

end SizingAt

/-- How far the writing has come, with the fields counted. -/
structure WritingAt where
  values : List Value
  field : Nat
  bytes : List UInt8

namespace WritingAt

def view (state : WritingAt) : Writing := ⟨state.values, state.bytes⟩

/-- Writes one field. -/
def stepAt? (state : WritingAt) (field : Field) : Option (Except PackError WritingAt) := do
  let count ← Word.add? state.field 1
  if field.holdsValue then
    match state.values with
    | [] => return .error .valuesShrank
    | value :: values =>
      match ← field.emitAt? value state.bytes with
      | .error misfit => return .error (.unwritable field.tag misfit)
      | .ok bytes => return .ok ⟨values, count, bytes⟩
  else
    let length ← Word.add? state.bytes.length field.size
    return .ok ⟨state.values, count, Field.resize state.bytes length⟩

/-- What the writing has come to at a place of the descriptor, with these fields ahead. The
values make up the rest of a record in bounds. -/
structure Reached (place : Nat) (fields : List Field) (state : WritingAt) : Prop where
  formed : ∀ field ∈ fields, field.WellFormed
  held : ∀ value ∈ state.values, value.Addressable
  counted : state.field ≤ state.bytes.length + place
  room : ∃ rest, Packed fields state.values rest ∧ state.bytes.length + rest.length ≤ maxLength

/-- What one more field has written takes up a byte, unless the field takes up one of the
descriptor. -/
theorem Reached.extend {state : WritingAt} {field : Field} {fields : List Field}
    {values : List Value} {front behind : List UInt8}
    (reached : Reached place (field :: fields) state)
    (paid : place < later ∨ later = place ∧ 1 ≤ front.length)
    (held : ∀ value ∈ values, value.Addressable) (packed : Packed fields values behind)
    (room : state.bytes.length + (front ++ behind).length ≤ maxLength) :
    Reached later fields ⟨values, state.field + 1, state.bytes ++ front⟩ := by
  have counted := reached.counted
  rw [List.length_append, ← Nat.add_assoc, ← List.length_append] at room
  refine ⟨fun one ahead => reached.formed one (.tail _ ahead), held, ?_, behind, packed, room⟩
  simp only [List.length_append]
  omega

/-- Nothing stops the writing of a field. -/
theorem steps {bytes : List UInt8} (addressable : Addressable bytes) :
    Bookmark.Steps bytes stepAt? Writing.step view Reached := by
  rintro place later field fields ⟨values, index, buffer⟩ reached onward inside
  obtain ⟨rest, packed, room⟩ := reached.room
  have count : Word.add? index 1 = some (index + 1) := by
    apply Word.add?_of_lt
    apply counter_word addressable reached.counted (Nat.le_trans (Nat.le_add_right ..) room)
    omega
  rw [stepAt?, Writing.step]
  simp only [count, Option.bind_eq_bind, Option.bind_some]
  cases packed with
  | @padding _ _ behind _ skips packed =>
    have length : Word.add? buffer.length field.size = some (buffer.length + field.size) := by
      apply Word.add?_of_lt
      apply lt_word_of_short
      rw [List.length_append, Field.length_zeros] at room
      simp only at room
      omega
    simp only [skips, Bool.false_eq_true, if_false, length, Option.bind_some, Field.resize_add]
    refine ⟨_, rfl, rfl, ?_⟩
    rintro _ ⟨⟩
    rcases onward with further | ⟨_, scalar, rfl⟩
    · exact reached.extend (.inl further) reached.held packed room
    · cases skips
  | @value _ values behind _ value front holds spelt packed =>
    have written := Field.encode_eq_ok_iff.mpr spelt
    have emitted : field.emitAt? value buffer = some (.ok (buffer ++ front)) := by
      rw [Field.emitAt?_eq (reached.formed field (.head _)) (reached.held value (.head _)), written]
      · rfl
      · intro bytes same
        cases written.symm.trans same
        rw [List.length_append] at room
        simp only at room
        omega
    simp only [holds, if_true, emitted, Option.bind_some]
    refine ⟨_, rfl, ?_, ?_⟩
    · simp only [view, written]
      rfl
    · rintro _ ⟨⟩
      have left : ∀ one ∈ values, one.Addressable := fun one ahead =>
        reached.held one (.tail _ ahead)
      rcases onward with further | ⟨same, scalar, rfl⟩
      · exact reached.extend (.inl further) left packed room
      · exact reached.extend (.inr ⟨same, spelt.scalar_pos⟩) left packed room

end WritingAt

/-- How many values are left over when the descriptor ends. It is written to the log. -/
def ignored? (given argument : Nat) : Option Nat :=
  if argument < given then Word.sub? given argument else some 0

theorem ignored?_eq (given argument : Nat) : ignored? given argument = some (given - argument) := by
  rw [ignored?]
  split
  · exact Word.sub?_of_le (Nat.le_of_lt ‹_›)
  · rw [Nat.sub_eq_zero_of_le (Nat.le_of_not_lt ‹_›)]

/-- Sizes all fields of a descriptor. -/
def sizePass? (descriptor : String) (values : List Value) : Option (Except PackError Nat) := do
  match ← Bookmark.walkAt? (Descriptor.spelling descriptor) (SizingAt.stepAt? values)
      (fun _ error => .descriptor error) (.ofText descriptor) ⟨0, 0, 0⟩ with
  | .error error => return .error error
  | .ok last =>
    let _ ← ignored? values.length last.argument
    return .ok last.total

/-- Writes all fields of a descriptor behind what the buffer holds. -/
def writePass? (descriptor : String) (values : List Value) (buffer : List UInt8) :
    Option (Except PackError (List UInt8)) := do
  let walked ← Bookmark.walkAt? (Descriptor.spelling descriptor) WritingAt.stepAt?
    (fun _ error => .descriptor error) (.ofText descriptor) ⟨values, 0, buffer⟩
  return walked.map WritingAt.bytes

def packedSizeAt? (descriptor : String) (values : List Value) : Option (Except PackError Nat) :=
  match Layout.ofText descriptor with
  | .error error => some (.error (.descriptor error))
  | .ok _ => sizePass? descriptor values

/-- Packs into a buffer that is cut off before anything else. -/
def packIntoAt? (descriptor : String) (values : List Value) (buffer : List UInt8) :
    Option (Except PackError Unit × List UInt8) :=
  let cleared := buffer.take 0
  match Layout.ofText descriptor with
  | .error error => some (.error (.descriptor error), cleared)
  | .ok _ => do
    match ← sizePass? descriptor values with
    | .error error => return (.error error, cleared)
    | .ok total =>
      if total = 0 then return (.error .empty, cleared)
      else
        match ← writePass? descriptor values cleared with
        | .error error => return (.error error, cleared)
        | .ok bytes => return (.ok (), bytes)

section Pass
variable {descriptor : String} {layout : Layout} {values : List Value}

theorem sizePass?_eq (opened : Layout.ofText descriptor = .ok layout)
    (readable : Addressable (Text.bytes descriptor)) (held : ∀ value ∈ values, value.Addressable) :
    sizePass? descriptor values = some ((Sizing.run layout values).map Sizing.total) := by
  have addressable := Bookmark.addressable_spelling readable
  have begins : SizingAt.Reached (Bookmark.ofText descriptor).place.offset layout.leading
      ⟨0, 0, 0⟩ :=
    ⟨(Layout.ofText_arranged opened).wellFormed, Layout.ofText_words opened, Nat.le_refl _,
      Nat.zero_le _, Nat.zero_le _⟩
  obtain ⟨answer, walked, same⟩ :=
    (SizingAt.steps addressable held).walkAt?_eq addressable (fun _ error => .descriptor error)
      (.ofText descriptor) (Bookmark.ahead_of_ofText opened) begins
  have run : Sizing.run layout values = answer.map (SizingAt.view values) := same.symm
  have pass : Bookmark.walkAt? (Descriptor.spelling descriptor) (SizingAt.stepAt? values)
      (fun _ error => .descriptor error) (.ofText descriptor) ⟨0, 0, 0⟩ = some answer := walked
  rw [sizePass?, pass, run]
  cases answer with
  | error error => rfl
  | ok last =>
    simp only [ignored?_eq, Option.bind_eq_bind, Option.bind_some]
    rfl

/-- What the sizing lets pass can be written. -/
theorem writePass?_eq (opened : Layout.ofText descriptor = .ok layout)
    (readable : Addressable (Text.bytes descriptor)) (held : ∀ value ∈ values, value.Addressable)
    {last : Sizing} (sized : Sizing.run layout values = .ok last) :
    writePass? descriptor values [] = some ((Writing.run layout values []).map Writing.bytes) := by
  have addressable := Bookmark.addressable_spelling readable
  obtain ⟨_, bytes, packed, total, within⟩ := Sizing.packed_of_run sized
  have begins : WritingAt.Reached (Bookmark.ofText descriptor).place.offset layout.leading
      ⟨values, 0, []⟩ := by
    refine ⟨(Layout.ofText_arranged opened).wellFormed, held, Nat.zero_le _, bytes, packed, ?_⟩
    simp only [List.length_nil]
    omega
  obtain ⟨answer, walked, same⟩ :=
    (WritingAt.steps addressable).walkAt?_eq addressable (fun _ error => .descriptor error)
      (.ofText descriptor) (Bookmark.ahead_of_ofText opened) begins
  have run : Writing.run layout values [] = answer.map WritingAt.view := same.symm
  have pass : Bookmark.walkAt? (Descriptor.spelling descriptor) WritingAt.stepAt?
      (fun _ error => .descriptor error) (.ofText descriptor) ⟨values, 0, []⟩ = some answer :=
    walked
  rw [writePass?, pass, run]
  cases answer <;> rfl

theorem packedSizeAt?_eq (readable : Addressable (Text.bytes descriptor))
    (held : ∀ value ∈ values, value.Addressable) :
    packedSizeAt? descriptor values = some (packedSize descriptor values) := by
  rw [packedSizeAt?, packedSize]
  cases opened : Layout.ofText descriptor with
  | error error => rfl
  | ok layout => exact sizePass?_eq opened readable held

theorem packIntoAt?_eq (readable : Addressable (Text.bytes descriptor))
    (held : ∀ value ∈ values, value.Addressable) (buffer : List UInt8) :
    packIntoAt? descriptor values buffer = some (packInto descriptor values buffer) := by
  rw [packIntoAt?, packInto]
  cases opened : Layout.ofText descriptor with
  | error error => rfl
  | ok layout =>
    simp only [sizePass?_eq opened readable held, Option.bind_eq_bind, Option.bind_some]
    cases sized : Sizing.run layout values with
    | error error => rfl
    | ok last =>
      simp only [Except.map, List.take_zero]
      by_cases zero : last.total = 0
      · rw [if_pos zero, if_pos zero]
        rfl
      · rw [if_neg zero, if_neg zero, writePass?_eq opened readable held sized]
        cases Writing.run layout values [] <;> rfl

end Pass

/-- Where the descriptor and what the values hold lie in memory, nothing stops the packing, however
large the counts are. It comes to what it comes to without regard to words: an error and an empty
buffer, or a record in bounds. The sizing adds to no count, since bytes with their length in front
have none, and a number of bits is not cut. -/
theorem packed_in_words {descriptor : String} {values : List Value}
    (readable : Addressable (Text.bytes descriptor)) (held : ∀ value ∈ values, value.Addressable)
    (buffer : List UInt8) :
    packedSizeAt? descriptor values = some (packedSize descriptor values) ∧
    packIntoAt? descriptor values buffer = some (packInto descriptor values buffer) ∧
    ((∃ error, packIntoAt? descriptor values buffer = some (.error error, [])) ∨
      ∃ bytes, packIntoAt? descriptor values buffer = some (.ok (), bytes) ∧
        bytes.length ≤ maxLength) ∧
    ∀ field ∈ Descriptor.leading descriptor,
      (field.tag = .sizedRaw → field.sized = false ∧
        ∀ content : List UInt8, Addressable content →
          Varint.sizeNat ((field.rawExtent content.length).1 + (field.rawExtent content.length).2) +
            (field.rawExtent content.length).1 + (field.rawExtent content.length).2 <
              UInt64.size) ∧
      (field.tag = .bits → field.size % 0x100000000 = field.size) := by
  rw [packIntoAt?_eq readable held buffer]
  refine ⟨packedSizeAt?_eq readable held, rfl, ?_, ?_⟩
  · rcases packInto_cases descriptor values buffer with ⟨error, _, failed⟩ | ⟨_, failed⟩ |
      ⟨_, bytes, _, _, done, _, _, within⟩
    · exact .inl ⟨error, congrArg some failed⟩
    · exact .inl ⟨.empty, congrArg some failed⟩
    · exact .inr ⟨bytes, congrArg some done, within⟩
  · rintro ⟨tag, size, sized⟩ found
    have formed := (Descriptor.leading_arranged descriptor).wellFormed _ found
    constructor
    · rintro rfl
      exact ⟨formed, fun content addressable => Field.fronted_word formed addressable⟩
    · rintro rfl
      have few : size ≤ 8 := formed.2
      exact Nat.mod_eq_of_lt (Nat.lt_of_le_of_lt few (by decide))

/-- A count may be as large as a word, and a byte that would be one too many is found out. -/
theorem packed_in_words_largest_count :
    packIntoAt? "uS18446744073709551615x" [.bytes [7, 0], .text "a"] [9] =
      some (.error (.tooLong 2), []) ∧
    packIntoAt? "2bu3s2uq" [.int64 1, .int64 (-1), .bytes [7], .text "ab", .bytes [5, 6, 7],
        .int64 (-8257)] [9] =
      some (.ok (), [129, 127, 129, 7, 97, 98, 0, 5, 6, 22, 223, 191]) := by
  have large : packInto "uS18446744073709551615x" [.bytes [7, 0], .text "a"] [9] =
      (.error (.tooLong 2), []) := by with_unfolding_all rfl
  have mixed : packInto "2bu3s2uq" [.int64 1, .int64 (-1), .bytes [7], .text "ab",
      .bytes [5, 6, 7], .int64 (-8257)] [9] =
      (.ok (), [129, 127, 129, 7, 97, 98, 0, 5, 6, 22, 223, 191]) := by with_unfolding_all rfl
  constructor
  · rw [← large]
    exact (packed_in_words (by decide) (by decide) [9]).2.1
  · rw [← mixed]
    exact (packed_in_words (by decide) (by decide) [9]).2.1

end Record

end OrderPack
