import OrderPack.Proofs.Record.Streaming
import OrderPack.Proofs.Record.Unpacking

/-! Reading a record into slots against reading it value by value. The slots are filled
from the first on with the values that an unpacker reads, until the record ends, the
unpacker fails, or a field is reached that has no slot or one of another kind. Whatever
stops the filling, slots that it has not come to are as they were. -/
namespace OrderPack

/-- What is read from a field is of its kind. -/
theorem Field.Yields.kind {field : Field} {value : Value} (yields : field.Yields value) :
    field.tag.kind? = some value.kind := by
  obtain ⟨tag, size, sized⟩ := field
  cases tag with
  | padding => cases yields
  | fixedText | text | raw | bits =>
    obtain ⟨_, rfl, _⟩ := yields
    rfl
  | sizedRaw =>
    obtain ⟨_, rfl⟩ := yields
    rfl
  | scalar scalar =>
    cases scalar with
    | int8 | uint8 =>
      obtain ⟨_, rfl, _⟩ := yields
      rfl
    | int | uint | recordId =>
      obtain ⟨_, rfl⟩ := yields
      rfl

namespace Record

theorem Unpacker.yields_of_readValue {unpacker after : Unpacker} {field : Field} {value : Value}
    (called : unpacker.readValue field = (.ok value, after)) : field.Yields value := by
  obtain ⟨made, _⟩ := Unpacker.read_of_readValue called
  cases answer : field.read unpacker.reader with
  | mk result left =>
    rw [answer] at made
    cases result with
    | error error => cases made
    | ok found =>
      cases made
      exact Field.read_yields answer

/-- Every value that an unpacker reads is one that the field it comes to can yield. -/
theorem Unpacker.Streams.yields {unpacker : Unpacker} {found : List Field} {values : List Value}
    {ending : Option UnpackError} (streams : unpacker.Streams found values ending) :
    (∀ (index : Nat) (value : Value), values[index]? = some value →
      ∃ field, found[index]? = some field ∧ field.Yields value) ∧
    values.length ≤ found.length ∧ (ending = none → found.length = values.length) := by
  induction streams with
  | ended | lost => exact ⟨fun _ _ none => (nomatch none), Nat.le_refl _, fun _ => rfl⟩
  | unread => exact ⟨fun _ _ none => (nomatch none), Nat.zero_le _, fun none => (nomatch none)⟩
  | @value _ _ _ _ _ _ field _ _ read _ ih =>
    obtain ⟨each, fewer, all⟩ := ih
    refine ⟨?_, Nat.succ_le_succ fewer, fun ends => congrArg (· + 1) (all ends)⟩
    intro index other stands
    cases index with
    | zero =>
      cases stands
      exact ⟨field, rfl, yields_of_readValue read⟩
    | succ index => exact each index other stands

/-- No failure of reading looks like a want of slots or a slot of the wrong kind. -/
theorem UnpackError.kind_ne (error : UnpackError) :
    error.report.kind ≠ .argumentCountMismatch ∧ error.report.kind ≠ .typeMismatch := by
  cases error with
  | emptyBuffer | descriptor => exact ⟨nofun, nofun⟩
  | field place cause =>
    cases cause with
    | noValue | shortage | unterminated | notText => exact ⟨nofun, nofun⟩
    | varint cause => cases cause <;> exact ⟨nofun, nofun⟩

/-- The first values that are read are of the kinds of their slots. -/
structure Agree (read slots : List Value) (count : Nat) : Prop where
  made : count ≤ read.length
  room : count ≤ slots.length
  kinds : (read.take count).map Value.kind = (slots.take count).map Value.kind

theorem Agree.none (read slots : List Value) : Agree read slots 0 :=
  ⟨Nat.zero_le _, Nat.zero_le _, rfl⟩

theorem Agree.cons {read slots : List Value} {value slot : Value} (same : value.kind = slot.kind)
    (agree : Agree read slots count) : Agree (value :: read) (slot :: slots) (count + 1) := by
  refine ⟨Nat.succ_le_succ agree.made, Nat.succ_le_succ agree.room, ?_⟩
  rw [List.take_succ_cons, List.take_succ_cons, List.map_cons, List.map_cons, same, agree.kinds]

theorem Agree.kind_eq {read slots : List Value} {value slot : Value}
    (agree : Agree read slots count) (early : index < count)
    (made : read[index]? = some value) (stands : slots[index]? = some slot) :
    value.kind = slot.kind := by
  have kinds := congrArg (·[index]?) agree.kinds
  simpa [List.getElem?_take, early, made, stands] using kinds

/-- All slots keep their kinds. -/
theorem Agree.kinds_kept {read slots : List Value} (agree : Agree read slots count) :
    (read.take count ++ slots.drop count).map Value.kind = slots.map Value.kind := by
  rw [List.map_append, agree.kinds, ← List.map_append, List.take_append_drop]

/-- Why the filling stops when so many slots have their value. The slots are numbered from
`first` on. -/
inductive Stopped (found : List Field) (read : List Value) (ending : Option UnpackError)
    (slots : List Value) (first : Nat) : Nat → FillError → Prop where
  /-- A field is reached that no slot is left for. -/
  | noSlot (more : slots.length < found.length) :
      Stopped found read ending slots first slots.length
        (.tooFewSlots (first + slots.length) offset)
  /-- The slot for the field that is reached is of another kind. -/
  | wrongSlot {field : Field} (stands : slots[count]? = some slot)
      (reached : found[count]? = some field) (differs : field.tag.kind? ≠ some slot.kind) :
      Stopped found read ending slots first count
        (.wrongSlot (first + count) field.tag slot.kind offset)
  /-- The reading fails before a field is reached, or at a field that has its slot. -/
  | failed (broken : ending = some cause) (room : found.length ≤ slots.length)
      (suits : ∀ (field : Field) (slot : Value), found[read.length]? = some field →
        slots[read.length]? = some slot → field.tag.kind? = some slot.kind) :
      Stopped found read ending slots first read.length (.unpack cause)

theorem Stopped.cons {found : List Field} {read slots : List Value} {ending : Option UnpackError}
    {error : FillError} (stopped : Stopped found read ending slots (first + 1) count error)
    (field : Field) (value slot : Value) :
    Stopped (field :: found) (value :: read) ending (slot :: slots) first (count + 1) error := by
  cases stopped with
  | noSlot more =>
    rw [Nat.add_assoc, Nat.add_comm 1]
    exact .noSlot (Nat.succ_lt_succ more)
  | wrongSlot stands reached differs =>
    rw [Nat.add_assoc, Nat.add_comm 1]
    exact .wrongSlot stands reached differs
  | failed broken room suits => exact .failed broken (Nat.succ_le_succ room) suits

namespace Filling

/-- Passes the fields of a layout from where the filling has come to. -/
def walk (layout : Layout) : Filling → Except (FillError × List Value) Filling :=
  layout.foldFields step fun filling error => (.unpack (.descriptor error), filling.slots)

theorem step_of_skips {reader : Reader} {place : Nat} {filled waiting : List Value}
    {field : Field} (skips : field.holdsValue = false) :
    step ⟨reader, place, filled, waiting⟩ field =
      match reader.take field.size with
      | .ok (_, left) => .ok ⟨left, place + 1, filled, waiting⟩
      | .error shortage =>
        .error (.unpack (.field place (.shortage shortage)), filled ++ waiting) := by
  cases took : reader.take field.size with
  | error shortage => simp only [step, skips, Bool.false_eq_true, if_false, took, slots]
  | ok taken => simp only [step, skips, Bool.false_eq_true, if_false, took]

/-- The walk comes to the field that an unpacker comes to. -/
theorem walk_eq (unpacker : Unpacker) (filled waiting : List Value) :
    walk unpacker.layout ⟨unpacker.reader, unpacker.field, filled, waiting⟩ =
      match unpacker.nextField with
      | (.ok none, after) => .ok ⟨after.reader, after.field, filled, waiting⟩
      | (.ok (some field), after) =>
        (step ⟨after.reader, after.field, filled, waiting⟩ field).bind (walk after.layout)
      | (.error error, _) => .error (.unpack error, filled ++ waiting) :=
  Unpacker.foldFields_nextField (Filling.mk · · filled waiting)
    (fun error => (FillError.unpack error, filled ++ waiting)) (fun _ _ _ => step_of_skips)
    (fun _ _ _ => rfl) unpacker

/-- At a field that is reached the next slot takes the value that an unpacker reads, if
there is a slot and it is of the kind of the field. -/
theorem walk_of_reached {unpacker before after : Unpacker} {field : Field}
    (reached : unpacker.nextField = (.ok (some field), before))
    (called : before.readValue field = (answer, after)) (filled waiting : List Value) :
    walk unpacker.layout ⟨unpacker.reader, unpacker.field, filled, waiting⟩ =
      match waiting with
      | [] => .error (.tooFewSlots filled.length before.reader.offset, filled ++ [])
      | slot :: waiting =>
        if field.tag.kind? = some slot.kind then
          (answer.mapError fun error => (.unpack error, filled ++ slot :: waiting)).bind
            fun value => walk after.layout ⟨after.reader, after.field, filled ++ [value], waiting⟩
        else
          .error (.wrongSlot filled.length field.tag slot.kind before.reader.offset,
            filled ++ slot :: waiting) := by
  obtain ⟨rfl, reader, place, layout⟩ := Unpacker.read_of_readValue called
  rw [walk_eq, reached, reader, place, layout]
  simp only
  rw [step, if_pos (Unpacker.nextField_holds reached)]
  cases waiting with
  | nil => rfl
  | cons slot waiting =>
    simp only
    split
    · rcases field.read before.reader with ⟨error | value, left⟩ <;> rfl
    · rfl

/-- The slots take the values that an unpacker reads, one after another, until the record
ends or something stops the filling. -/
theorem walk_of_streams {unpacker : Unpacker} {found : List Field} {read : List Value}
    {ending : Option UnpackError} (streams : unpacker.Streams found read ending)
    (filled waiting : List Value) :
    (ending = none ∧ Agree read waiting read.length ∧ ∃ last,
        walk unpacker.layout ⟨unpacker.reader, unpacker.field, filled, waiting⟩ = .ok last ∧
        last.filled = filled ++ read ∧ last.waiting = waiting.drop read.length) ∨
      ∃ count error, Agree read waiting count ∧
        Stopped found read ending waiting filled.length count error ∧
        walk unpacker.layout ⟨unpacker.reader, unpacker.field, filled, waiting⟩ =
          .error (error, filled ++ (read.take count ++ waiting.drop count)) := by
  -- With each value that is read one slot goes over from those that wait to those filled.
  induction streams generalizing filled waiting with
  | @ended _ after done =>
    refine .inl ⟨rfl, .none _ _, ⟨after.reader, after.field, filled, waiting⟩, ?_,
      (List.append_nil _).symm, rfl⟩
    rw [walk_eq, done]
  | @lost error _ _ stopped =>
    refine .inr ⟨0, .unpack error, .none _ _,
      .failed rfl (Nat.zero_le _) fun _ _ none => (nomatch none), ?_⟩
    rw [walk_eq, stopped]
    rfl
  | @unread error _ _ _ field reached failed =>
    rw [walk_of_reached reached failed]
    cases waiting with
    | nil => exact .inr ⟨0, _, .none _ _, .noSlot Nat.one_pos, rfl⟩
    | cons slot waiting =>
      by_cases suits : field.tag.kind? = some slot.kind
      · simp only [if_pos suits]
        refine .inr ⟨0, .unpack error, .none _ _, .failed rfl (by simp) ?_, rfl⟩
        rintro _ _ ⟨⟩ ⟨⟩
        exact suits
      · simp only [if_neg suits]
        exact .inr ⟨0, _, .none _ _, .wrongSlot rfl rfl suits, rfl⟩
  | @value _ _ _ _ _ _ field value reached read _ ih =>
    rw [walk_of_reached reached read]
    cases waiting with
    | nil => exact .inr ⟨0, _, .none _ _, .noSlot (Nat.succ_pos _), rfl⟩
    | cons slot waiting =>
      by_cases suits : field.tag.kind? = some slot.kind
      · simp only [if_pos suits]
        have same : value.kind = slot.kind :=
          Option.some.inj ((Unpacker.yields_of_readValue read).kind.symm.trans suits)
        have onwards := ih (filled ++ [value]) waiting
        simp only [List.length_append, List.append_assoc] at onwards
        rcases onwards with ⟨ends, agree, others⟩ | ⟨count, error, agree, stopped, walked⟩
        · exact .inl ⟨ends, agree.cons same, others⟩
        · exact .inr ⟨count + 1, error, agree.cons same, stopped.cons field value slot, walked⟩
      · simp only [if_neg suits]
        exact .inr ⟨0, _, .none _ _, .wrongSlot rfl rfl suits, rfl⟩

end Filling

/-- Filling slots comes to the end of the record, or stops with the values that are read by
then in the first slots. -/
theorem unpackInto_of_streamed {descriptor : String} {buffer : List UInt8} {found : List Field}
    {read : List Value} {ending : Option UnpackError}
    (streamed : Streamed descriptor buffer found read ending) (slots : List Value) :
    (ending = none ∧ Agree read slots read.length ∧
        unpackInto descriptor buffer slots = (.ok read.length, read ++ slots.drop read.length)) ∨
      ∃ count error, Agree read slots count ∧ Stopped found read ending slots 0 count error ∧
        unpackInto descriptor buffer slots =
          (.error error, read.take count ++ slots.drop count) := by
  rw [unpackInto]
  rcases streamed.opening with ⟨error, refused, rfl, rfl, rfl⟩ | ⟨layout, opened, streams⟩
  · rw [refused]
    exact .inr ⟨0, .unpack error, .none _ _,
      .failed rfl (Nat.zero_le _) fun _ _ none => (nomatch none), rfl⟩
  · rw [opened]
    rcases Filling.walk_of_streams streams [] slots with
      ⟨ends, agree, last, walked, front, back⟩ | ⟨count, error, agree, stopped, walked⟩
    · refine .inl ⟨ends, agree, ?_⟩
      have ran : Filling.run layout buffer slots = .ok last := walked
      simp only [ran, Filling.slots, front, back, List.nil_append]
    · refine .inr ⟨count, error, agree, stopped, ?_⟩
      have ran : Filling.run layout buffer slots = _ := walked
      simp only [ran, List.nil_append]

theorem Streamed.yields {descriptor : String} {buffer : List UInt8} {found : List Field}
    {read : List Value} {ending : Option UnpackError}
    (streamed : Streamed descriptor buffer found read ending) :
    (∀ (index : Nat) (value : Value), read[index]? = some value →
      ∃ field, found[index]? = some field ∧ field.Yields value) ∧
    read.length ≤ found.length ∧ (ending = none → found.length = read.length) := by
  rcases streamed.opening with ⟨_, _, rfl, rfl, rfl⟩ | ⟨_, _, streams⟩
  · exact ⟨fun _ _ none => (nomatch none), Nat.le_refl _, fun none => (nomatch none)⟩
  · exact streams.yields

/-- What has stopped the filling, by the class of its failure. -/
theorem Stopped.kind_iff {found : List Field} {read slots : List Value}
    {ending : Option UnpackError} {error : FillError} {count : Nat}
    (stopped : Stopped found read ending slots first count error) :
    (error.report.kind = .argumentCountMismatch ↔
      count = slots.length ∧ ∃ field, found[count]? = some field) ∧
    (error.report.kind = .typeMismatch ↔ ∃ slot field, slots[count]? = some slot ∧
      found[count]? = some field ∧ field.tag.kind? ≠ some slot.kind) ∧
    (error.report.kind ≠ .argumentCountMismatch → error.report.kind ≠ .typeMismatch →
      ∃ cause, error = .unpack cause ∧ ending = some cause) := by
  cases stopped with
  | noSlot more =>
    refine ⟨⟨fun _ => ⟨rfl, _, List.getElem?_eq_getElem more⟩, fun _ => rfl⟩, ⟨nofun, ?_⟩,
      fun other => absurd rfl other⟩
    rintro ⟨slot, _, beyond, _⟩
    rw [List.getElem?_eq_none (Nat.le_refl _)] at beyond
    cases beyond
  | wrongSlot stands reached differs =>
    refine ⟨⟨nofun, ?_⟩, ⟨fun _ => ⟨_, _, stands, reached, differs⟩, fun _ => rfl⟩,
      fun _ other => absurd rfl other⟩
    rintro ⟨rfl, _⟩
    rw [List.getElem?_eq_none (Nat.le_refl _)] at stands
    cases stands
  | @failed cause broken room suits =>
    obtain ⟨notCount, notType⟩ := cause.kind_ne
    refine ⟨⟨fun same => absurd same notCount, ?_⟩, ⟨fun same => absurd same notType, ?_⟩,
      fun _ _ => ⟨cause, rfl, broken⟩⟩
    · rintro ⟨all, field, beyond⟩
      have within := (List.getElem?_eq_some_iff.mp beyond).1
      omega
    · rintro ⟨slot, field, stands, reached, differs⟩
      exact absurd (suits field slot reached stands) differs

/-- Where nothing goes wrong in reading, and the slots are enough and of the right kinds,
nothing stops the filling. -/
theorem Stopped.impossible {descriptor : String} {buffer : List UInt8} {found : List Field}
    {read slots : List Value} {error : FillError} {count : Nat}
    (streamed : Streamed descriptor buffer found read none)
    (agree : Agree read slots read.length) : ¬Stopped found read none slots 0 count error := by
  obtain ⟨each, _, all⟩ := streamed.yields
  have room := agree.room
  intro stopped
  cases stopped with
  | noSlot more =>
    rw [all rfl] at more
    exact Nat.not_lt_of_le room more
  | wrongSlot stands reached differs =>
    have early := (List.getElem?_eq_some_iff.mp reached).1
    rw [all rfl] at early
    have made := List.getElem?_eq_getElem early
    obtain ⟨_, same, yields⟩ := each count _ made
    cases reached.symm.trans same
    rw [yields.kind, agree.kind_eq early made stands] at differs
    exact differs rfl
  | failed broken => cases broken

/-- Filling slots follows the reading of the record value by value. -/
theorem unpackInto_follows_streaming (descriptor : String) (buffer : List UInt8)
    (slots : List Value) :
    (∃ found read ending, Streamed descriptor buffer found read ending) ∧
    ∀ found read ending, Streamed descriptor buffer found read ending →
      unpack descriptor buffer = outcome read ending ∧
      (∀ count after, unpackInto descriptor buffer slots = (.ok count, after) ↔
        unpack descriptor buffer = .ok read ∧ read.length = count ∧ count ≤ slots.length ∧
          read.map Value.kind = (slots.take count).map Value.kind ∧
          after = read ++ slots.drop count) ∧
      (∀ error after, unpackInto descriptor buffer slots = (.error error, after) →
        ∃ count, count ≤ read.length ∧ count ≤ slots.length ∧
          after = read.take count ++ slots.drop count ∧
          (error.report.kind = .argumentCountMismatch ↔
            count = slots.length ∧ ∃ field, found[count]? = some field) ∧
          (error.report.kind = .typeMismatch ↔ ∃ slot field, slots[count]? = some slot ∧
            found[count]? = some field ∧ field.tag.kind? ≠ some slot.kind) ∧
          (error.report.kind ≠ .argumentCountMismatch → error.report.kind ≠ .typeMismatch →
            ∃ cause, error = .unpack cause ∧ unpack descriptor buffer = .error cause)) ∧
      (unpackInto descriptor buffer slots).2.map Value.kind = slots.map Value.kind := by
  refine ⟨exists_streamed descriptor buffer, ?_⟩
  intro found read ending streamed
  have unpacks := unpack_of_streamed streamed
  refine ⟨unpacks, ?_⟩
  rcases unpackInto_of_streamed streamed slots with ⟨rfl, agree, filled⟩ |
    ⟨count, error, agree, stopped, failed⟩
  · have kinds := agree.kinds
    have kept := agree.kinds_kept
    rw [List.take_length] at kinds kept
    rw [filled]
    refine ⟨?_, fun _ _ none => (nomatch none), kept⟩
    intro count after
    constructor
    · rintro ⟨⟩
      exact ⟨unpacks, rfl, agree.room, kinds, rfl⟩
    · rintro ⟨_, rfl, _, _, rfl⟩
      rfl
  · rw [failed]
    refine ⟨?_, ?_, agree.kinds_kept⟩
    · intro count after
      refine ⟨nofun, ?_⟩
      rintro ⟨sound, rfl, room, kinds, _⟩
      cases ending with
      | some cause => cases unpacks.symm.trans sound
      | none =>
        have all : Agree read slots read.length :=
          ⟨Nat.le_refl _, room, by rwa [List.take_length]⟩
        exact absurd stopped (Stopped.impossible streamed all)
    · rintro _ _ ⟨⟩
      obtain ⟨fewSlots, wrongSlot, other⟩ := stopped.kind_iff
      refine ⟨count, agree.made, agree.room, rfl, fewSlots, wrongSlot, ?_⟩
      intro notCount notType
      obtain ⟨cause, same, rfl⟩ := other notCount notType
      exact ⟨cause, same, unpacks⟩

/-- A slot of the wrong kind does no harm until its field is reached. Here the padding
before the field is cut short, so the slot is of another kind than the field, and yet it is
for the want of bytes that the filling fails. -/
theorem wrong_slot_out_of_reach :
    (∃ error, unpackInto "2xq" [0] [.text ""] = (.error error, [.text ""]) ∧
      error.report.kind = .truncatedInput) ∧
    ¬∃ fields found read ending error after count, Descriptor.fields "2xq" = .ok fields ∧
      Streamed "2xq" [0] found read ending ∧
      unpackInto "2xq" [0] [.text ""] = (.error error, after) ∧
      count ≤ read.length ∧ after = read.take count ++ [Value.text ""].drop count ∧
      (error.report.kind = .typeMismatch ↔ ∃ slot field, [Value.text ""][count]? = some slot ∧
        (fields.filter Field.holdsValue)[count]? = some field ∧
        field.tag.kind? ≠ some slot.kind) := by
  have failed : unpackInto "2xq" [0] [.text ""] =
      (.error (.unpack (.field 0 (.shortage ⟨0, 1⟩))), [.text ""]) := by
    with_unfolding_all rfl
  have known : Descriptor.fields "2xq" =
      .ok [⟨.padding, 2, true⟩, .ofScalar (.int .w64)] := by
    with_unfolding_all rfl
  refine ⟨⟨_, failed, rfl⟩, ?_⟩
  rintro ⟨fields, found, read, ending, error, after, count, same, streamed, refused, made, _, iff⟩
  cases failed.symm.trans refused
  cases known.symm.trans same
  have nothing : Streamed "2xq" [0] [] [] (some (.field 0 (.shortage ⟨0, 1⟩))) :=
    .opened rfl (.lost rfl)
  obtain ⟨_, rfl, _⟩ := nothing.unique streamed
  cases Nat.le_zero.mp made
  cases iff.mpr ⟨_, _, rfl, rfl, nofun⟩

end Record

end OrderPack
