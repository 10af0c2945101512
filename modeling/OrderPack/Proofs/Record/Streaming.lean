import OrderPack.Proofs.Descriptor.Fields
import OrderPack.Record.Unpacker

/-! What an unpacker finds on its way, and that reading a whole record finds the same. A
walk over a layout takes one field after another; an unpacker goes to the next field that
holds a value, and stops there until it is asked to read. Over the padding in between both
do the same, so that a walk is a row of seeks, each with one step at the field it comes
to. -/
namespace OrderPack.Record

namespace Unpacker

/-- An unpacker that is made stands before the first byte of its buffer. -/
theorem of_ofText {descriptor : String} {buffer : List UInt8} {unpacker : Unpacker}
    (made : ofText descriptor buffer = .ok unpacker) :
    ∃ layout, openRecord descriptor buffer = .ok layout ∧
      unpacker = ⟨layout, ⟨0, buffer⟩, 0, false⟩ := by
  rw [ofText] at made
  cases opened : openRecord descriptor buffer with
  | error error =>
    rw [opened] at made
    cases made
  | ok layout =>
    rw [opened] at made
    cases made
    exact ⟨layout, rfl, rfl⟩

/-- The field that a seek comes to is the next one behind padding. What is left is a part
of the layout and ends as the layout does. -/
theorem seek_found {reader after : Reader} {layout left : Layout} {field : Field}
    (found : seek reader passed layout = (.ok (some field), left, after, place)) :
    ∃ padding, layout.leading = padding ++ field :: left.leading ∧
      (∀ skipped ∈ padding, skipped.holdsValue = false) ∧ field.holdsValue = true ∧
      place = passed + padding.length ∧ left.fault? = layout.fault? := by
  induction layout generalizing reader passed with
  | ended | malformed | stuck => cases found
  | single first rest ih =>
    rw [seek] at found
    cases holds : first.holdsValue with
    | true =>
      rw [holds, if_pos rfl] at found
      cases found
      exact ⟨[], rfl, fun _ none => (nomatch none), holds, rfl, rfl⟩
    | false =>
      rw [holds, if_neg Bool.false_ne_true] at found
      cases took : reader.take first.size with
      | error shortage =>
        rw [took] at found
        cases found
      | ok taken =>
        rw [took] at found
        obtain ⟨padding, leading, skips, value, counted, ends⟩ := ih found
        refine ⟨first :: padding, ?_, ?_, value, ?_, ends⟩
        · rw [Layout.leading, leading, List.cons_append]
        · exact List.forall_mem_cons.mpr ⟨holds, skips⟩
        · rw [counted, List.length_cons, Nat.add_assoc, Nat.add_comm 1]
  | repeated scalar copies rest ih =>
    cases copies with
    | zero =>
      obtain ⟨padding, leading, others⟩ := ih found
      exact ⟨padding, leading, others⟩
    | succ copies =>
      cases found
      exact ⟨[], rfl, fun _ none => (nomatch none), rfl, rfl, rfl⟩

section Walk

/-! A walk that passes padding as an unpacker does, and meets a fault as it does. The rest of
the state of the walk is in `stand`, which only tells where the walk is. -/

variable {σ ε : Type} {step : σ → Field → Except ε σ} {fault : σ → Descriptor.Error → ε}
  (stand : Reader → Nat → σ) (stop : UnpackError → ε)
  (pads : ∀ reader place field, field.holdsValue = false →
    step (stand reader place) field =
      match reader.take field.size with
      | .ok (_, left) => .ok (stand left (place + 1))
      | .error shortage => .error (stop (.field place (.shortage shortage))))
  (faults : ∀ reader place cause, fault (stand reader place) cause = stop (.descriptor cause))

include pads faults

/-- The walk comes to the field that is sought, or fails as the seek does. -/
theorem foldFields_seek (layout : Layout) (reader : Reader) (place : Nat) :
    layout.foldFields step fault (stand reader place) =
      match seek reader place layout with
      | (.ok none, _, reader, place) => .ok (stand reader place)
      | (.ok (some field), rest, reader, place) =>
        (step (stand reader place) field).bind (rest.foldFields step fault)
      | (.error error, _) => .error (stop error) := by
  induction layout generalizing reader place with
  | ended => rfl
  | malformed cause | stuck cause => exact congrArg Except.error (faults reader place cause)
  | single field rest ih =>
    rw [Layout.foldFields, seek]
    cases holds : field.holdsValue with
    | true =>
      simp only [if_true]
      cases step (stand reader place) field <;> rfl
    | false =>
      rw [pads reader place field holds]
      simp only [Bool.false_eq_true, if_false]
      cases reader.take field.size with
      | error shortage => rfl
      | ok taken => exact ih taken.2 (place + 1)
  | repeated scalar copies rest ih =>
    cases copies with
    | zero => exact ih reader place
    | succ copies =>
      rw [Layout.foldFields, Layout.repeatStep, seek]
      simp only
      cases step (stand reader place) (Field.ofScalar scalar) <;> rfl

/-- The walk comes to the field that an unpacker comes to. -/
theorem foldFields_nextField (unpacker : Unpacker) :
    unpacker.layout.foldFields step fault (stand unpacker.reader unpacker.field) =
      match unpacker.nextField with
      | (.ok none, after) => .ok (stand after.reader after.field)
      | (.ok (some field), after) =>
        (step (stand after.reader after.field) field).bind
          (after.layout.foldFields step fault)
      | (.error error, _) => .error (stop error) := by
  rw [foldFields_seek stand stop pads faults, nextField]
  rcases seek unpacker.reader unpacker.field unpacker.layout with ⟨error | _ | field, _⟩ <;> rfl

end Walk

/-- A call for the next field is a seek from where the unpacker stands. -/
theorem seek_of_nextField {unpacker after : Unpacker}
    (called : unpacker.nextField = (answer, after)) :
    seek unpacker.reader unpacker.field unpacker.layout =
      (answer, after.layout, after.reader, after.field) := by
  cases called
  rfl

theorem nextField_holds {unpacker before : Unpacker} {field : Field}
    (reached : unpacker.nextField = (.ok (some field), before)) : field.holdsValue = true := by
  obtain ⟨_, _, _, holds, _⟩ := seek_found (seek_of_nextField reached)
  exact holds

/-- A field that is read is read from where the unpacker stands, and counted. -/
theorem read_of_readValue {unpacker after : Unpacker} {field : Field}
    (called : unpacker.readValue field = (answer, after)) :
    answer = (field.read unpacker.reader).1.mapError (.field unpacker.field) ∧
      after.reader = (field.read unpacker.reader).2 ∧ after.field = unpacker.field + 1 ∧
      after.layout = unpacker.layout := by
  cases called
  exact ⟨rfl, rfl, rfl, rfl⟩

/-- What calls of an unpacker come to: the fields that hold a value and are reached, the
values that are read from them, and how this ends. It ends after the last field, or at the
first failure on the way to a field or in reading it. -/
inductive Streams : Unpacker → List Field → List Value → Option UnpackError → Prop where
  | ended {unpacker after : Unpacker} (done : unpacker.nextField = (.ok none, after)) :
      Streams unpacker [] [] none
  | lost {unpacker after : Unpacker} (stopped : unpacker.nextField = (.error error, after)) :
      Streams unpacker [] [] (some error)
  | unread {unpacker before after : Unpacker} {field : Field}
      (reached : unpacker.nextField = (.ok (some field), before))
      (failed : before.readValue field = (.error error, after)) :
      Streams unpacker [field] [] (some error)
  | value {unpacker before after : Unpacker} {field : Field} {value : Value}
      (reached : unpacker.nextField = (.ok (some field), before))
      (read : before.readValue field = (.ok value, after))
      (later : Streams after found values ending) :
      Streams unpacker (field :: found) (value :: values) ending

/-- What an unpacker finds is settled by where it stands. -/
theorem Streams.unique {unpacker : Unpacker} (one : Streams unpacker found values ending)
    (other : Streams unpacker found' values' ending') :
    found' = found ∧ values' = values ∧ ending' = ending := by
  induction one generalizing found' values' ending' with
  | ended done =>
    cases other with
    | ended => exact ⟨rfl, rfl, rfl⟩
    | lost reached | unread reached | value reached => cases done.symm.trans reached
  | lost stopped =>
    cases other with
    | lost same =>
      cases stopped.symm.trans same
      exact ⟨rfl, rfl, rfl⟩
    | ended reached | unread reached | value reached => cases stopped.symm.trans reached
  | unread reached failed =>
    cases other with
    | unread same refused =>
      cases reached.symm.trans same
      cases failed.symm.trans refused
      exact ⟨rfl, rfl, rfl⟩
    | value same read =>
      cases reached.symm.trans same
      cases failed.symm.trans read
    | ended elsewhere | lost elsewhere => cases reached.symm.trans elsewhere
  | value reached read later ih =>
    cases other with
    | value same again following =>
      cases reached.symm.trans same
      cases read.symm.trans again
      obtain ⟨rfl, rfl, rfl⟩ := ih following
      exact ⟨rfl, rfl, rfl⟩
    | unread same refused =>
      cases reached.symm.trans same
      cases read.symm.trans refused
    | ended elsewhere | lost elsewhere => cases reached.symm.trans elsewhere

/-- Every unpacker comes to an end: each field it comes to leaves it fewer. -/
theorem exists_streams (unpacker : Unpacker) :
    ∃ found values ending, Streams unpacker found values ending := by
  cases next : unpacker.nextField with
  | mk answer before =>
    match answer, next with
    | .error error, stopped => exact ⟨[], [], some error, .lost stopped⟩
    | .ok none, done => exact ⟨[], [], none, .ended done⟩
    | .ok (some field), reached =>
      cases read : before.readValue field with
      | mk answer after =>
        cases answer with
        | error error => exact ⟨[field], [], some error, .unread reached read⟩
        | ok value =>
          have fewer : after.layout.leading.length < unpacker.layout.leading.length := by
            obtain ⟨padding, leading, _⟩ := seek_found (seek_of_nextField reached)
            obtain ⟨_, _, _, same⟩ := read_of_readValue read
            rw [same, leading, List.length_append, List.length_cons]
            omega
          obtain ⟨found, values, ending, later⟩ := exists_streams after
          exact ⟨field :: found, value :: values, ending, .value reached read later⟩
termination_by unpacker.layout.leading.length

end Unpacker

/-- Reading value by value in a buffer. Where there is no unpacker nothing is found. -/
inductive Streamed (descriptor : String) (buffer : List UInt8) :
    List Field → List Value → Option UnpackError → Prop where
  | closed (refused : Unpacker.ofText descriptor buffer = .error error) :
      Streamed descriptor buffer [] [] (some error)
  | opened (made : Unpacker.ofText descriptor buffer = .ok unpacker)
      (streams : unpacker.Streams found values ending) :
      Streamed descriptor buffer found values ending

theorem exists_streamed (descriptor : String) (buffer : List UInt8) :
    ∃ found values ending, Streamed descriptor buffer found values ending := by
  cases made : Unpacker.ofText descriptor buffer with
  | error error => exact ⟨[], [], some error, .closed made⟩
  | ok unpacker =>
    obtain ⟨found, values, ending, streams⟩ := unpacker.exists_streams
    exact ⟨found, values, ending, .opened made streams⟩

/-- Where there is a layout, what is found is found from its first field on. -/
theorem Streamed.opening {descriptor : String} {buffer : List UInt8} {found : List Field}
    {values : List Value} {ending : Option UnpackError}
    (streamed : Streamed descriptor buffer found values ending) :
    (∃ error, openRecord descriptor buffer = .error error ∧ found = [] ∧ values = [] ∧
      ending = some error) ∨
    ∃ layout, openRecord descriptor buffer = .ok layout ∧
      Unpacker.Streams ⟨layout, ⟨0, buffer⟩, 0, false⟩ found values ending := by
  cases streamed with
  | closed refused =>
    rw [Unpacker.ofText] at refused
    cases opened : openRecord descriptor buffer with
    | error error =>
      rw [opened] at refused
      cases refused
      exact .inl ⟨_, rfl, rfl, rfl, rfl⟩
    | ok layout =>
      rw [opened] at refused
      cases refused
  | opened made streams =>
    obtain ⟨layout, opened, rfl⟩ := Unpacker.of_ofText made
    exact .inr ⟨layout, opened, streams⟩

theorem Streamed.unique {descriptor : String} {buffer : List UInt8}
    (one : Streamed descriptor buffer found values ending)
    (other : Streamed descriptor buffer found' values' ending') :
    found' = found ∧ values' = values ∧ ending' = ending := by
  rcases one.opening with ⟨_, refused, rfl, rfl, rfl⟩ | ⟨_, opened, streams⟩
  · rcases other.opening with ⟨_, again, rfl, rfl, rfl⟩ | ⟨_, opened, _⟩
    · cases refused.symm.trans again
      exact ⟨rfl, rfl, rfl⟩
    · cases refused.symm.trans opened
  · rcases other.opening with ⟨_, refused, _⟩ | ⟨_, again, following⟩
    · cases opened.symm.trans refused
    · cases opened.symm.trans again
      exact streams.unique following

/-- The values, unless something went wrong. -/
def outcome (values : List Value) : Option UnpackError → Except UnpackError (List Value)
  | none => .ok values
  | some error => .error error

namespace Reading

/-- Passes the fields of a layout from where the reading has come to. -/
def walk (layout : Layout) : Reading → Except UnpackError Reading :=
  layout.foldFields step fun _ error => .descriptor error

theorem step_of_skips {reader : Reader} {place : Nat} {values : List Value} {field : Field}
    (skips : field.holdsValue = false) :
    step ⟨reader, place, values⟩ field =
      match reader.take field.size with
      | .ok (_, left) => .ok ⟨left, place + 1, values⟩
      | .error shortage => .error (.field place (.shortage shortage)) := by
  cases took : reader.take field.size with
  | error shortage => simp only [step, skips, Bool.false_eq_true, if_false, took]
  | ok taken => simp only [step, skips, Bool.false_eq_true, if_false, took]

/-- The walk takes from a field the value that an unpacker reads. -/
theorem step_of_readValue {unpacker after : Unpacker} {field : Field}
    (holds : field.holdsValue = true) (called : unpacker.readValue field = (answer, after))
    (earlier : List Value) :
    step ⟨unpacker.reader, unpacker.field, earlier⟩ field =
      answer.map fun value => ⟨after.reader, after.field, earlier ++ [value]⟩ := by
  obtain ⟨rfl, reader, place, _⟩ := Unpacker.read_of_readValue called
  rw [step, if_pos holds, reader, place]
  rcases field.read unpacker.reader with ⟨error | value, left⟩ <;> rfl

/-- The walk comes to the field that an unpacker comes to. -/
theorem walk_eq (unpacker : Unpacker) (earlier : List Value) :
    walk unpacker.layout ⟨unpacker.reader, unpacker.field, earlier⟩ =
      match unpacker.nextField with
      | (.ok none, after) => .ok ⟨after.reader, after.field, earlier⟩
      | (.ok (some field), after) =>
        (step ⟨after.reader, after.field, earlier⟩ field).bind (walk after.layout)
      | (.error error, _) => .error error :=
  Unpacker.foldFields_nextField (Reading.mk · · earlier) id (fun _ _ _ => step_of_skips)
    (fun _ _ _ => rfl) unpacker

/-- A walk over all fields reads what an unpacker reads. -/
theorem walk_of_streams {unpacker : Unpacker} {found : List Field} {values : List Value}
    {ending : Option UnpackError} (streams : unpacker.Streams found values ending)
    (earlier : List Value) :
    (walk unpacker.layout ⟨unpacker.reader, unpacker.field, earlier⟩).map Reading.values =
      outcome (earlier ++ values) ending := by
  induction streams generalizing earlier with
  | ended done =>
    rw [walk_eq, done, List.append_nil]
    rfl
  | lost stopped =>
    rw [walk_eq, stopped]
    rfl
  | unread reached failed =>
    rw [walk_eq, reached]
    simp only
    rw [step_of_readValue (Unpacker.nextField_holds reached) failed]
    rfl
  | @value _ _ _ _ _ _ _ value reached read later ih =>
    rw [walk_eq, reached]
    simp only
    rw [step_of_readValue (Unpacker.nextField_holds reached) read]
    obtain ⟨_, _, _, same⟩ := Unpacker.read_of_readValue read
    have onwards := ih (earlier ++ [value])
    rw [same, List.append_assoc, List.singleton_append] at onwards
    exact onwards

end Reading

/-- The values of a record are those that are read one by one. -/
theorem unpack_of_streamed {descriptor : String} {buffer : List UInt8} {found : List Field}
    {values : List Value} {ending : Option UnpackError}
    (streamed : Streamed descriptor buffer found values ending) :
    unpack descriptor buffer = outcome values ending := by
  rw [unpack]
  rcases streamed.opening with ⟨error, refused, rfl, rfl, rfl⟩ | ⟨layout, opened, streams⟩
  · rw [refused]
    rfl
  · rw [opened]
    exact Reading.walk_of_streams streams []

end OrderPack.Record
