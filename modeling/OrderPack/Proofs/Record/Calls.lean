import OrderPack.Proofs.Record.Addressing
import OrderPack.Proofs.Record.Streaming

/-! Any calls of an unpacker, in any order, and also after a call that has failed. A call may
stop half way, after padding or behind a length, and the next one goes on from there. All of
them keep one invariant: the unpacker stands at an offset of its buffer, with the bytes behind
this offset ahead of it. What a call does from there does not leave the buffer. -/
namespace OrderPack.Record.Unpacker

/-- A call of an unpacker. A value may be read as that of any field. -/
inductive Call where
  | nextField
  | readValue (field : Field)
  | nextValue
  | next

/-- What a call answers. -/
inductive Answer where
  | field (answer : Except UnpackError (Option Field))
  | value (answer : Except UnpackError Value)
  | valueIfAny (answer : Except UnpackError (Option Value))
  | turn (answer : Option (Except UnpackError Value))

/-- The answer to a call, and the unpacker after it. -/
def perform (unpacker : Unpacker) : Call → Answer × Unpacker
  | .nextField =>
    let (answer, after) := unpacker.nextField
    (.field answer, after)
  | .readValue field =>
    let (answer, after) := unpacker.readValue field
    (.value answer, after)
  | .nextValue =>
    let (answer, after) := unpacker.nextValue
    (.valueIfAny answer, after)
  | .next =>
    let (answer, after) := unpacker.next
    (.turn answer, after)

/-- The answers to a row of calls, and the unpacker after the last. -/
def performAll (unpacker : Unpacker) : List Call → List Answer × Unpacker
  | [] => ([], unpacker)
  | call :: calls =>
    let (answer, after) := unpacker.perform call
    let (answers, last) := after.performAll calls
    (answer :: answers, last)

/-! The same calls by the offset at which the unpacker stands, in the arithmetic of machine
words. -/

/-- The way to the next field. Behind the last one the bytes that are left are counted for
the log. -/
def seekAt? (buffer : List UInt8) (start passed : Nat) :
    Layout → Option (Except UnpackError (Option Field) × Layout × Reader × Nat)
  | .ended => do
    let _ ← if start < buffer.length then Word.sub? buffer.length start else some 0
    return (.ok none, .ended, Reader.ofBuffer buffer start, passed)
  | .single field rest =>
    if field.holdsValue then some (.ok (some field), rest, Reader.ofBuffer buffer start, passed)
    else do
      match ← Reader.takeAt? buffer start field.size with
      | .ok (_, after) => seekAt? buffer after.offset (passed + 1) rest
      | .error shortage =>
        return (.error (.field passed (.shortage shortage)), rest, Reader.ofBuffer buffer start,
          passed)
  | .repeated _ 0 rest => seekAt? buffer start passed rest
  | .repeated scalar (copies + 1) rest =>
    some (.ok (some (Field.ofScalar scalar)), .repeated scalar copies rest,
      Reader.ofBuffer buffer start, passed)
  | .malformed error rest =>
    some (.error (.descriptor error), rest, Reader.ofBuffer buffer start, passed)
  | .stuck error =>
    some (.error (.descriptor error), .stuck error, Reader.ofBuffer buffer start, passed)

def nextFieldAt? (buffer : List UInt8) (unpacker : Unpacker) :
    Option (Except UnpackError (Option Field) × Unpacker) := do
  let (answer, layout, reader, field) ←
    seekAt? buffer unpacker.position unpacker.field unpacker.layout
  return (answer, { unpacker with layout, reader, field })

def readValueAt? (buffer : List UInt8) (unpacker : Unpacker) (field : Field) :
    Option (Except UnpackError Value × Unpacker) := do
  let (answer, reader) ← field.readAt? buffer unpacker.position
  return (answer.mapError (.field unpacker.field),
    { unpacker with reader, field := unpacker.field + 1 })

def nextValueAt? (buffer : List UInt8) (unpacker : Unpacker) :
    Option (Except UnpackError (Option Value) × Unpacker) := do
  match ← nextFieldAt? buffer unpacker with
  | (.error error, unpacker) => return (.error error, unpacker)
  | (.ok none, unpacker) => return (.ok none, unpacker)
  | (.ok (some field), unpacker) =>
    let (answer, unpacker) ← readValueAt? buffer unpacker field
    return (answer.map some, unpacker)

def nextAt? (buffer : List UInt8) (unpacker : Unpacker) :
    Option (Option (Except UnpackError Value) × Unpacker) :=
  if unpacker.ended then some (none, unpacker)
  else do
    match ← nextValueAt? buffer unpacker with
    | (.ok (some value), unpacker) => return (some (.ok value), unpacker)
    | (.ok none, unpacker) => return (none, { unpacker with ended := true })
    | (.error error, unpacker) => return (some (.error error), { unpacker with ended := true })

def performAt? (buffer : List UInt8) (unpacker : Unpacker) : Call → Option (Answer × Unpacker)
  | .nextField => do
    let (answer, after) ← nextFieldAt? buffer unpacker
    return (.field answer, after)
  | .readValue field => do
    let (answer, after) ← readValueAt? buffer unpacker field
    return (.value answer, after)
  | .nextValue => do
    let (answer, after) ← nextValueAt? buffer unpacker
    return (.valueIfAny answer, after)
  | .next => do
    let (answer, after) ← nextAt? buffer unpacker
    return (.turn answer, after)

def performAllAt? (buffer : List UInt8) (unpacker : Unpacker) :
    List Call → Option (List Answer × Unpacker)
  | [] => some ([], unpacker)
  | call :: calls => do
    let (answer, after) ← performAt? buffer unpacker call
    let (answers, last) ← performAllAt? buffer after calls
    return (answer :: answers, last)

/-- The unpacker stands in the buffer: it has passed no more bytes than there are, and those
that it has not passed are ahead. -/
structure StandsIn (unpacker : Unpacker) (buffer : List UInt8) : Prop where
  ahead : unpacker.reader = Reader.ofBuffer buffer unpacker.position
  inside : unpacker.position ≤ buffer.length

/-- Wherever an unpacker goes onward it stands in its buffer again. -/
theorem StandsIn.onward {unpacker after : Unpacker} {buffer : List UInt8}
    (stands : unpacker.StandsIn buffer) (onward : unpacker.reader.Onward after.reader) :
    after.StandsIn buffer ∧ unpacker.position ≤ after.position := by
  rw [stands.ahead] at onward
  obtain ⟨ahead, later, inside⟩ := onward.ofBuffer stands.inside
  exact ⟨⟨ahead, inside⟩, later⟩

theorem standsIn_of_ofText {descriptor : String} {buffer : List UInt8} {unpacker : Unpacker}
    (made : ofText descriptor buffer = .ok unpacker) : unpacker.StandsIn buffer := by
  obtain ⟨layout, _, rfl⟩ := of_ofText made
  exact ⟨rfl, Nat.zero_le _⟩

/-! No call goes back. -/

theorem seek_onward (layout : Layout) (reader : Reader) (passed : Nat) :
    reader.Onward (seek reader passed layout).2.2.1 := by
  induction layout generalizing reader passed with
  | ended | malformed | stuck => exact .refl reader
  | single field rest ih =>
    rw [seek]
    cases field.holdsValue with
    | true => exact .refl reader
    | false =>
      simp only [Bool.false_eq_true, if_false]
      cases took : reader.take field.size with
      | error shortage => exact .refl reader
      | ok taken => exact (Reader.Onward.of_take took).trans (ih taken.2 (passed + 1))
  | repeated scalar copies rest ih =>
    cases copies with
    | zero => exact ih reader passed
    | succ copies => exact .refl reader

theorem nextField_onward (unpacker : Unpacker) :
    unpacker.reader.Onward unpacker.nextField.2.reader :=
  seek_onward unpacker.layout unpacker.reader unpacker.field

theorem readValue_onward (unpacker : Unpacker) (field : Field) :
    unpacker.reader.Onward (unpacker.readValue field).2.reader :=
  field.read_onward unpacker.reader

theorem nextValue_onward (unpacker : Unpacker) :
    unpacker.reader.Onward unpacker.nextValue.2.reader := by
  have onward := nextField_onward unpacker
  rw [nextValue]
  cases next : unpacker.nextField with
  | mk answer before =>
    rw [next] at onward
    rcases answer with error | _ | field
    · exact onward
    · exact onward
    · exact onward.trans (readValue_onward before field)

theorem next_onward (unpacker : Unpacker) : unpacker.reader.Onward unpacker.next.2.reader := by
  have onward := nextValue_onward unpacker
  rw [next]
  cases unpacker.ended with
  | true => exact .refl unpacker.reader
  | false =>
    simp only [Bool.false_eq_true, if_false]
    cases pulled : unpacker.nextValue with
    | mk answer after =>
      rw [pulled] at onward
      rcases answer with error | _ | value <;> exact onward

theorem perform_onward (unpacker : Unpacker) (call : Call) :
    unpacker.reader.Onward (unpacker.perform call).2.reader := by
  cases call with
  | nextField => exact nextField_onward unpacker
  | readValue field => exact readValue_onward unpacker field
  | nextValue => exact nextValue_onward unpacker
  | next => exact next_onward unpacker

theorem performAll_onward (unpacker : Unpacker) (calls : List Call) :
    unpacker.reader.Onward (unpacker.performAll calls).2.reader := by
  induction calls generalizing unpacker with
  | nil => exact .refl unpacker.reader
  | cons call calls ih => exact (perform_onward unpacker call).trans (ih _)

/-- Later calls go on from where earlier ones have come to. -/
theorem reached_append (unpacker : Unpacker) (earlier later : List Call) :
    (unpacker.performAll (earlier ++ later)).2 =
      ((unpacker.performAll earlier).2.performAll later).2 := by
  induction earlier generalizing unpacker with
  | nil => rfl
  | cons call earlier ih => exact ih (unpacker.perform call).2

/-! No call is stopped. -/

section At
variable {buffer : List UInt8} {unpacker : Unpacker}

theorem seekAt?_eq (addressable : Addressable buffer) (inside : start ≤ buffer.length)
    (passed : Nat) (layout : Layout) :
    seekAt? buffer start passed layout =
      some (seek (Reader.ofBuffer buffer start) passed layout) := by
  induction layout generalizing start passed with
  | malformed | stuck => rfl
  | ended =>
    rw [seekAt?, Word.sub?_of_le inside]
    split <;> rfl
  | single field rest ih =>
    rw [seekAt?, seek]
    cases field.holdsValue with
    | true => rfl
    | false =>
      simp only [Bool.false_eq_true, if_false, Reader.takeAt?_eq addressable inside,
        Option.bind_eq_bind, Option.bind_some]
      cases took : (Reader.ofBuffer buffer start).take field.size with
      | error shortage => rfl
      | ok taken =>
        obtain ⟨place, _, within⟩ := (Reader.Onward.of_take took).ofBuffer inside
        simp only [ih within, ← place]
  | repeated scalar copies rest ih =>
    cases copies with
    | zero => exact ih inside passed
    | succ copies => rfl

theorem nextFieldAt?_eq (addressable : Addressable buffer) (stands : unpacker.StandsIn buffer) :
    nextFieldAt? buffer unpacker = some unpacker.nextField := by
  rw [nextFieldAt?, seekAt?_eq addressable stands.inside, ← stands.ahead]
  rfl

theorem readValueAt?_eq (addressable : Addressable buffer) (stands : unpacker.StandsIn buffer)
    (field : Field) : readValueAt? buffer unpacker field = some (unpacker.readValue field) := by
  rw [readValueAt?, field.readAt?_eq addressable stands.inside, ← stands.ahead]
  rfl

theorem nextValueAt?_eq (addressable : Addressable buffer) (stands : unpacker.StandsIn buffer) :
    nextValueAt? buffer unpacker = some unpacker.nextValue := by
  have reached := (stands.onward (nextField_onward unpacker)).1
  rw [nextValueAt?, nextFieldAt?_eq addressable stands, nextValue]
  simp only [Option.bind_eq_bind, Option.bind_some]
  cases next : unpacker.nextField with
  | mk answer before =>
    rw [next] at reached
    rcases answer with error | _ | field
    · rfl
    · rfl
    · simp only [readValueAt?_eq addressable reached, Option.bind_some]
      rfl

theorem nextAt?_eq (addressable : Addressable buffer) (stands : unpacker.StandsIn buffer) :
    nextAt? buffer unpacker = some unpacker.next := by
  rw [nextAt?, nextValueAt?_eq addressable stands, next]
  cases unpacker.ended with
  | true => rfl
  | false =>
    simp only [Bool.false_eq_true, if_false, Option.bind_eq_bind, Option.bind_some]
    rcases unpacker.nextValue with ⟨error | _ | value, after⟩ <;> rfl

theorem performAt?_eq (addressable : Addressable buffer) (stands : unpacker.StandsIn buffer)
    (call : Call) : performAt? buffer unpacker call = some (unpacker.perform call) := by
  cases call with
  | nextField =>
    rw [performAt?, nextFieldAt?_eq addressable stands]
    rfl
  | readValue field =>
    rw [performAt?, readValueAt?_eq addressable stands]
    rfl
  | nextValue =>
    rw [performAt?, nextValueAt?_eq addressable stands]
    rfl
  | next =>
    rw [performAt?, nextAt?_eq addressable stands]
    rfl

theorem performAllAt?_eq (addressable : Addressable buffer) (stands : unpacker.StandsIn buffer)
    (calls : List Call) :
    performAllAt? buffer unpacker calls = some (unpacker.performAll calls) := by
  induction calls generalizing unpacker with
  | nil => rfl
  | cons call calls ih =>
    have reached := (stands.onward (perform_onward unpacker call)).1
    rw [performAllAt?, performAt?_eq addressable stands]
    simp only [Option.bind_eq_bind, Option.bind_some, ih reached]
    rfl

end At

/-- Whatever calls are made of an unpacker, also after failures, it stands in its buffer and
goes onward only. In a buffer that has an address nothing stops it on the way: each sum and
difference of words is in range, and each row of bytes within the buffer. Where it stands when
the value of a field cannot be read is where it stood before, but for a length that has been
read and for text that has been taken. -/
theorem calls_in_bounds {descriptor : String} {buffer : List UInt8} {unpacker : Unpacker}
    (made : ofText descriptor buffer = .ok unpacker) (earlier later : List Call) :
    let reached := (unpacker.performAll earlier).2
    let last := (unpacker.performAll (earlier ++ later)).2
    reached.reader = Reader.ofBuffer buffer reached.position ∧
    reached.position ≤ last.position ∧ last.position ≤ buffer.length ∧
    (Addressable buffer → performAllAt? buffer unpacker (earlier ++ later) =
      some (unpacker.performAll (earlier ++ later))) ∧
    ∀ field error after, reached.readValue field = (.error error, after) →
      field.FailsAt (Reader.ofBuffer buffer reached.position) after.position := by
  intro reached last
  have stands := standsIn_of_ofText made
  have first : reached.StandsIn buffer := (stands.onward (performAll_onward unpacker earlier)).1
  have onward : reached.reader.Onward last.reader := by
    have further := performAll_onward reached later
    rwa [← reached_append] at further
  obtain ⟨second, monotone⟩ := first.onward onward
  refine ⟨first.ahead, monotone, second.inside,
    fun addressable => performAllAt?_eq addressable stands _, ?_⟩
  intro field error after failed
  rw [← first.ahead]
  rw [readValue] at failed
  cases read : field.read reached.reader with
  | mk answer left =>
    rw [read] at failed
    cases answer with
    | ok value => cases failed
    | error cause =>
      cases failed
      exact field.read_fails read

/-- Text that is not valid is passed, and a field that is larger than any buffer is not. -/
theorem calls_in_bounds_past_failures :
    ∃ unpacker after, ofText "x2sQ" [0, 195, 0, 226, 7] = .ok unpacker ∧
      let calls : List Call :=
        [.readValue ⟨.fixedText, 2, true⟩, .readValue ⟨.raw, 18446744073709551615, true⟩, .next]
      let reached := (unpacker.performAll [.nextField]).2
      reached.position ≤ (unpacker.performAll ([.nextField] ++ calls)).2.position ∧
      (unpacker.performAll ([.nextField] ++ calls)).2.position ≤ 5 ∧
      performAllAt? [0, 195, 0, 226, 7] unpacker ([.nextField] ++ calls) =
        some (unpacker.performAll ([.nextField] ++ calls)) ∧
      reached.readValue ⟨.fixedText, 2, true⟩ =
        (.error (.field 1 (.notText 1 (.incomplete 0))), after) ∧
      Field.FailsAt ⟨.fixedText, 2, true⟩
        (Reader.ofBuffer [0, 195, 0, 226, 7] reached.position) after.position := by
  have made : ofText "x2sQ" [0, 195, 0, 226, 7] =
      .ok ⟨.single ⟨.padding, 1, false⟩ (.single ⟨.fixedText, 2, true⟩
        (.repeated (.uint .w64) 1 .ended)), ⟨0, [0, 195, 0, 226, 7]⟩, 0, false⟩ := by
    with_unfolding_all rfl
  refine ⟨_, ⟨.repeated (.uint .w64) 1 .ended, ⟨3, [226, 7]⟩, 2, false⟩, made, ?_⟩
  intro calls reached
  obtain ⟨_, later, inside, unstopped, fails⟩ := calls_in_bounds made [.nextField] calls
  have place : reached = ⟨.repeated (.uint .w64) 1 .ended, ⟨1, [195, 0, 226, 7]⟩, 1, false⟩ := by
    with_unfolding_all rfl
  have failed : reached.readValue ⟨.fixedText, 2, true⟩ =
      (.error (.field 1 (.notText 1 (.incomplete 0))),
        ⟨.repeated (.uint .w64) 1 .ended, ⟨3, [226, 7]⟩, 2, false⟩) := by
    rw [place]
    with_unfolding_all rfl
  exact ⟨later, inside, unstopped (by decide), failed, fails _ _ _ failed⟩

end OrderPack.Record.Unpacker
