import OrderPack.Proofs.Descriptor.Asking
import OrderPack.Proofs.Record.Addressing
import OrderPack.Proofs.Record.Packing
import OrderPack.Proofs.Record.Streaming
import OrderPack.Proofs.Varint.Ranges

/-! Counts cannot run away with a record. Reading, filling and sizing are walks over the fields
of a descriptor, and the field of a count that repeats is only passed if it takes a byte of the
buffer or a value of the caller. So the fields that are asked for are no more than the bytes of
the descriptor and what there is to take, and one. -/
namespace OrderPack

namespace Reader

theorem Onward.rest_length {reader after : Reader} (onward : reader.Onward after) :
    after.rest.length ≤ reader.rest.length := by
  obtain ⟨count, _, rfl⟩ := onward
  simp

/-- Bytes that a value is made of are taken from what is ahead. -/
theorem takeBytes_spends {reader after : Reader} {make : List UInt8 → Value} (some : 0 < count)
    (read : (let (answer, left) := reader.takeBytes count; (answer.map make, left)) =
      (.ok value, after)) :
    after.rest.length < reader.rest.length := by
  rcases reader.takeBytes_cases count with ⟨enough, taken⟩ | ⟨_, cause, failed⟩
  · rw [taken] at read
    cases read
    simp only [List.length_drop]
    omega
  · rw [failed] at read
    cases read

end Reader

theorem Varint.Passes.spends {reader after : Reader} {c : Varint.Class} {first : UInt8}
    {digits : List UInt8} (passes : Varint.Passes reader after c first digits) :
    after.rest.length < reader.rest.length := by
  rw [passes.bytes, List.length_cons, List.length_append]
  omega

/-- A scalar that is read takes a byte at least. -/
theorem Field.read_spends {scalar : Scalar} {reader after : Reader} {value : Value}
    (read : (Field.ofScalar scalar).read reader = (.ok value, after)) :
    after.rest.length < reader.rest.length := by
  cases scalar with
  | int8 | uint8 => exact Reader.takeBytes_spends Nat.one_pos read
  | recordId => exact Reader.takeBytes_spends (by decide) read
  | int width =>
    rw [Field.ofScalar, read_int] at read
    cases decoded : Varint.decodeSigned reader with
    | error error =>
      rw [decoded] at read
      cases read
    | ok found =>
      rw [decoded] at read
      cases read
      obtain ⟨c, first, digits, passes, _⟩ := Varint.passes_of_decodeSigned decoded
      exact passes.spends
  | uint width =>
    rw [Field.ofScalar, read_uint] at read
    cases decoded : Varint.decodeUnsigned reader with
    | error error =>
      rw [decoded] at read
      cases read
    | ok found =>
      rw [decoded] at read
      cases read
      obtain ⟨c, first, digits, passes, _⟩ := Varint.passes_of_decodeUnsigned decoded
      exact passes.spends

/-- How a field is passed in a buffer: a value is read, or as many bytes of padding are taken as
the field is long. -/
inductive Field.Moves (field : Field) (reader after : Reader) : Prop where
  | value {value : Value} (holds : field.holdsValue = true)
      (read : field.read reader = (.ok value, after))
  | padding {bytes : List UInt8} (skips : field.holdsValue = false)
      (took : reader.take field.size = .ok (bytes, after))

theorem Field.Moves.keeps {field : Field} {reader after : Reader}
    (moves : field.Moves reader after) : after.rest.length ≤ reader.rest.length := by
  cases moves with
  | value holds read =>
    have onward := field.read_onward reader
    rw [read] at onward
    exact onward.rest_length
  | padding skips took => exact (Reader.Onward.of_take took).rest_length

theorem Field.Moves.spends {scalar : Scalar} {reader after : Reader}
    (moves : (Field.ofScalar scalar).Moves reader after) :
    after.rest.length < reader.rest.length := by
  cases moves with
  | value holds read => exact read_spends read
  | padding skips took => cases skips

namespace Record

theorem Reading.step_moves {reading next : Reading} {field : Field}
    (passed : reading.step field = .ok next) : field.Moves reading.reader next.reader := by
  unfold step at passed
  split at passed
  · split at passed
    · cases passed
      exact .value ‹_› ‹_›
    · cases passed
  · split at passed
    · cases passed
      exact .padding (Bool.not_eq_true _ |>.mp ‹_›) ‹_›
    · cases passed

theorem Filling.step_moves {filling next : Filling} {field : Field}
    (passed : filling.step field = .ok next) : field.Moves filling.reader next.reader := by
  simp only [step] at passed
  split at passed
  · split at passed
    · cases passed
    · split at passed
      · split at passed
        · cases passed
          exact .value ‹_› ‹_›
        · cases passed
      · cases passed
  · split at passed
    · cases passed
      exact .padding (Bool.not_eq_true _ |>.mp ‹_›) ‹_›
    · cases passed

/-- Reading is paid for by the bytes ahead. -/
theorem Reading.pays : Layout.Pays Reading.step fun reading => reading.reader.rest.length where
  keeps passed := (step_moves passed).keeps
  spends passed := (step_moves passed).spends

theorem Filling.pays : Layout.Pays Filling.step fun filling => filling.reader.rest.length where
  keeps passed := (step_moves passed).keeps
  spends passed := (step_moves passed).spends

/-- Sizing is paid for by the values that are left. -/
theorem Sizing.pays (given : Nat) :
    Layout.Pays (Sizing.step given) fun sizing => sizing.values.length where
  keeps := by
    intro sizing next field passed
    obtain ⟨_, _, ⟨_, same, _⟩ | ⟨_, _, _, taken, _⟩⟩ := Sizing.step_cases passed
    · rw [same]
    · simp [taken]
  spends := by
    intro sizing next scalar passed
    obtain ⟨_, _, ⟨skips, _⟩ | ⟨_, _, _, taken, _⟩⟩ := Sizing.step_cases passed
    · cases skips
    · simp [taken]

namespace Unpacker

/-- The walk to the next field that holds a value, which asks the layout for one field after the
other and counts how often. -/
def seekAsking (reader : Reader) (passed : Nat) (layout : Layout) :
    (Except UnpackError (Option Field) × Layout × Reader × Nat) × Nat :=
  match _answered : layout.advance with
  | (.error error, rest) => ((.error (.descriptor error), rest, reader, passed), 1)
  | (.ok none, rest) => ((.ok none, rest, reader, passed), 1)
  | (.ok (some field), rest) =>
    if field.holdsValue then ((.ok (some field), rest, reader, passed), 1)
    else
      match reader.take field.size with
      | .ok (_, reader) =>
        let (found, asked) := seekAsking reader (passed + 1) rest
        (found, asked + 1)
      | .error shortage => ((.error (.field passed (.shortage shortage)), rest, reader, passed), 1)
termination_by layout.leading.length
decreasing_by
  have leading := Layout.leading_of_advance (congrArg Prod.fst _answered)
  rw [_answered] at leading
  simp [leading]

/-- A seek goes by what the layout answers. -/
theorem seek_eq_advance (reader : Reader) (passed : Nat) (layout : Layout) :
    seek reader passed layout =
      match layout.advance with
      | (.error error, rest) => (.error (.descriptor error), rest, reader, passed)
      | (.ok none, rest) => (.ok none, rest, reader, passed)
      | (.ok (some field), rest) =>
        if field.holdsValue then (.ok (some field), rest, reader, passed)
        else
          match reader.take field.size with
          | .ok (_, reader) => seek reader (passed + 1) rest
          | .error shortage =>
            (.error (.field passed (.shortage shortage)), rest, reader, passed) := by
  induction layout with
  | ended | single | malformed | stuck => rfl
  | repeated scalar copies rest ih =>
    cases copies with
    | zero => exact ih
    | succ copies => rfl

theorem seekAsking_fst (reader : Reader) (passed : Nat) (layout : Layout) :
    (seekAsking reader passed layout).1 = seek reader passed layout := by
  fun_induction seekAsking reader passed layout with
  | case1 reader passed layout error rest answered | case2 reader passed layout rest answered =>
    rw [seek_eq_advance, answered]
  | case3 reader passed layout field rest answered holds =>
    rw [seek_eq_advance, answered]
    simp only [holds, if_true]
  | case4 reader passed layout field rest answered skips bytes after took found asked counted ih =>
    rw [seek_eq_advance, answered]
    simpa only [skips, Bool.false_eq_true, if_false, took, counted] using ih
  | case5 reader passed layout field rest answered skips shortage short =>
    rw [seek_eq_advance, answered]
    simp only [skips, Bool.false_eq_true, if_false, short]

theorem seekAsking_pos (reader : Reader) (passed : Nat) (layout : Layout) :
    0 < (seekAsking reader passed layout).2 := by
  fun_induction seekAsking reader passed layout with
  | case1 | case2 | case3 | case5 => exact Nat.one_pos
  | case4 => exact Nat.succ_pos _

/-- The next field that holds a value, and how often the layout was asked on the way. -/
def nextFieldAsking (unpacker : Unpacker) :
    (Except UnpackError (Option Field) × Unpacker) × Nat :=
  let ((answer, layout, reader, field), asked) :=
    seekAsking unpacker.reader unpacker.field unpacker.layout
  ((answer, { unpacker with layout, reader, field }), asked)

theorem nextField_of_asking {unpacker after : Unpacker}
    (called : unpacker.nextFieldAsking = ((answer, after), asked)) :
    unpacker.nextField = (answer, after) := by
  have counted : unpacker.nextFieldAsking.1 = unpacker.nextField := by
    rw [nextField, ← seekAsking_fst]
    rfl
  rw [← counted, called]

theorem nextFieldAsking_pos (unpacker : Unpacker) : 0 < unpacker.nextFieldAsking.2 :=
  seekAsking_pos unpacker.reader unpacker.field unpacker.layout

/-- Takes the values of an unpacker until it ends or fails, and counts how often the layout is
asked for a field by then. -/
def collectAsking (unpacker : Unpacker) : Except UnpackError (List Value) × Nat :=
  match _reached : unpacker.nextFieldAsking with
  | ((.error error, _), asked) => (.error error, asked)
  | ((.ok none, _), asked) => (.ok [], asked)
  | ((.ok (some field), before), asked) =>
    match _read : before.readValue field with
    | (.error error, _) => (.error error, asked)
    | (.ok value, after) =>
      let (values, more) := collectAsking after
      (values.map (value :: ·), more + asked)
termination_by unpacker.layout.leading.length
decreasing_by
  have sought := seek_of_nextField (nextField_of_asking _reached)
  obtain ⟨padding, leading, _⟩ := seek_found sought
  obtain ⟨_, _, _, same⟩ := read_of_readValue _read
  rw [same, leading, List.length_append, List.length_cons]
  omega

/-- There are fewer values than questions: each value has a field, and the end is asked for. -/
theorem length_of_collectAsking {unpacker : Unpacker} {values : List Value} {asked : Nat}
    (collected : unpacker.collectAsking = (.ok values, asked)) : values.length < asked := by
  fun_induction collectAsking unpacker generalizing values asked with
  | case1 | case3 => cases collected
  | case2 unpacker after asked reached =>
    cases collected
    have some := unpacker.nextFieldAsking_pos
    rw [reached] at some
    exact some
  | case4 unpacker field before asked reached value after read later more counted ih =>
    cases later with
    | error error => cases collected
    | ok later =>
      cases collected
      have some := unpacker.nextFieldAsking_pos
      have fewer := ih counted
      rw [reached] at some
      simp only [List.length_cons]
      omega

end Unpacker

namespace Reading

/-- Passes the fields of a layout from where the reading has come to, and counts how often the
layout is asked. -/
def walkAsking (layout : Layout) : Reading → Except UnpackError Reading × Nat :=
  layout.foldAsking step fun _ error => .descriptor error

/-- A walk asks as often as an unpacker up to the field that this one comes to, and then reads. -/
theorem walkAsking_seek (layout : Layout) (reader : Reader) (place : Nat) (earlier : List Value) :
    walkAsking layout ⟨reader, place, earlier⟩ =
      match Unpacker.seekAsking reader place layout with
      | ((.error error, _), asked) => (.error error, asked)
      | ((.ok none, _, reader, place), asked) => (.ok ⟨reader, place, earlier⟩, asked)
      | ((.ok (some field), rest, reader, place), asked) =>
        match step ⟨reader, place, earlier⟩ field with
        | .error error => (.error error, asked)
        | .ok next => ((walkAsking rest next).1, (walkAsking rest next).2 + asked) := by
  rw [walkAsking, Layout.foldAsking_eq_advance]
  fun_induction Unpacker.seekAsking reader place layout with
  | case1 reader place layout error rest answered | case2 reader place layout rest answered =>
    rw [answered]
  | case3 reader place layout field rest answered holds =>
    rw [answered]
    simp only
    cases step ⟨reader, place, earlier⟩ field <;> rfl
  | case4 reader place layout field rest answered skips bytes after took found asked counted ih =>
    have passed : step ⟨reader, place, earlier⟩ field = .ok ⟨after, place + 1, earlier⟩ := by
      rw [step_of_skips (Bool.not_eq_true _ |>.mp skips), took]
    rw [answered]
    simp only [passed]
    rw [Layout.foldAsking_eq_advance, ih, counted]
    obtain ⟨error | _ | field, rest, reader, place⟩ := found
    · rfl
    · rfl
    · simp only
      cases step ⟨reader, place, earlier⟩ field <;> rfl
  | case5 reader place layout field rest answered skips shortage short =>
    have failed : step ⟨reader, place, earlier⟩ field =
        .error (.field place (.shortage shortage)) := by
      rw [step_of_skips (Bool.not_eq_true _ |>.mp skips), short]
    rw [answered]
    simp only [failed]

theorem walkAsking_nextField (unpacker : Unpacker) (earlier : List Value) :
    walkAsking unpacker.layout ⟨unpacker.reader, unpacker.field, earlier⟩ =
      match unpacker.nextFieldAsking with
      | ((.error error, _), asked) => (.error error, asked)
      | ((.ok none, after), asked) => (.ok ⟨after.reader, after.field, earlier⟩, asked)
      | ((.ok (some field), before), asked) =>
        match step ⟨before.reader, before.field, earlier⟩ field with
        | .error error => (.error error, asked)
        | .ok next =>
          ((walkAsking before.layout next).1, (walkAsking before.layout next).2 + asked) := by
  rw [walkAsking_seek, Unpacker.nextFieldAsking]
  rcases Unpacker.seekAsking unpacker.reader unpacker.field unpacker.layout with
    ⟨⟨error | _ | field, _⟩, asked⟩ <;> rfl

/-- A walk finds the values that an unpacker finds, and asks as often. -/
theorem walkAsking_collect (unpacker : Unpacker) (earlier : List Value) :
    (walkAsking unpacker.layout ⟨unpacker.reader, unpacker.field, earlier⟩).1.map Reading.values =
        unpacker.collectAsking.1.map (earlier ++ ·) ∧
      (walkAsking unpacker.layout ⟨unpacker.reader, unpacker.field, earlier⟩).2 =
        unpacker.collectAsking.2 := by
  rw [walkAsking_nextField]
  fun_induction Unpacker.collectAsking unpacker generalizing earlier with
  | case1 unpacker error after asked reached =>
    rw [reached]
    exact ⟨rfl, rfl⟩
  | case2 unpacker after asked reached =>
    rw [reached]
    exact ⟨congrArg Except.ok (List.append_nil earlier).symm, rfl⟩
  | case3 unpacker field before asked reached error after failed =>
    have holds := Unpacker.nextField_holds (Unpacker.nextField_of_asking reached)
    rw [reached]
    simp only [step_of_readValue holds failed earlier]
    exact ⟨rfl, rfl⟩
  | case4 unpacker field before asked reached value after read later more counted ih =>
    have holds := Unpacker.nextField_holds (Unpacker.nextField_of_asking reached)
    obtain ⟨_, _, _, same⟩ := Unpacker.read_of_readValue read
    obtain ⟨found, asks⟩ := ih (earlier ++ [value])
    rw [← walkAsking_nextField, counted, same] at found asks
    rw [reached]
    have passed : step ⟨before.reader, before.field, earlier⟩ field =
        .ok ⟨after.reader, after.field, earlier ++ [value]⟩ := step_of_readValue holds read earlier
    simp only [passed]
    refine ⟨?_, congrArg (· + asked) asks⟩
    rw [found]
    cases later <;> simp [Except.map]

end Reading

/-- The values of a record, and how many fields its descriptor is asked for. Where there is no
unpacker it is asked for none. -/
def unpackAsking (descriptor : String) (buffer : List UInt8) :
    Except UnpackError (List Value) × Nat :=
  match Unpacker.ofText descriptor buffer with
  | .error error => (.error error, 0)
  | .ok unpacker => unpacker.collectAsking

/-- How many fields a descriptor is asked for until slots are filled or one is not. -/
def fillAsking (descriptor : String) (buffer : List UInt8) (slots : List Value) :
    (Except FillError Nat × List Value) × Nat :=
  match openRecord descriptor buffer with
  | .error error => ((.error (.unpack error), slots), 0)
  | .ok layout =>
    match layout.foldAsking Filling.step
        (fun filling error => (.unpack (.descriptor error), filling.slots))
        ⟨⟨0, buffer⟩, 0, [], slots⟩ with
    | (.ok filling, asked) => ((.ok filling.filled.length, filling.slots), asked)
    | (.error (error, slots), asked) => ((.error error, slots), asked)

/-- The length of a record, and how many fields the descriptor is asked for. -/
def sizeAsking (descriptor : String) (values : List Value) : Except PackError Nat × Nat :=
  match Layout.ofText descriptor with
  | .error error => (.error (.descriptor error), 0)
  | .ok layout =>
    let (sized, asked) := layout.foldAsking (Sizing.step values.length)
      (fun _ error => .descriptor error) ⟨values, 0, 0⟩
    (sized.map Sizing.total, asked)

/-- An opened record has a sound start of a descriptor and a byte to read. -/
theorem of_openRecord {descriptor : String} {buffer : List UInt8} {layout : Layout}
    (opened : openRecord descriptor buffer = .ok layout) :
    Layout.ofText descriptor = .ok layout ∧ 0 < buffer.length := by
  rw [openRecord] at opened
  split at opened
  · cases opened
  · rename_i some
    refine ⟨?_, List.length_pos_iff.mpr (mt List.isEmpty_iff.mpr some)⟩
    cases read : Layout.ofText descriptor with
    | error error =>
      rw [read] at opened
      cases opened
    | ok layout =>
      rw [read] at opened
      cases opened
      rfl

theorem unpackAsking_fst (descriptor : String) (buffer : List UInt8) :
    (unpackAsking descriptor buffer).1 = unpack descriptor buffer := by
  rw [unpackAsking, unpack, Unpacker.ofText]
  cases openRecord descriptor buffer with
  | error error => rfl
  | ok layout =>
    obtain ⟨found, _⟩ := Reading.walkAsking_collect ⟨layout, ⟨0, buffer⟩, 0, false⟩ []
    have walked : (Reading.walkAsking layout ⟨⟨0, buffer⟩, 0, []⟩).1 = Reading.run layout buffer :=
      Layout.foldAsking_fst _ _ layout _
    rw [walked] at found
    change (Unpacker.collectAsking _).1 = (Reading.run layout buffer).map Reading.values
    rw [found]
    cases (Unpacker.collectAsking ⟨layout, ⟨0, buffer⟩, 0, false⟩).1 <;> rfl

theorem unpackAsking_snd (descriptor : String) (buffer : List UInt8) :
    (unpackAsking descriptor buffer).2 ≤ (Text.bytes descriptor).length + buffer.length + 1 := by
  rw [unpackAsking, Unpacker.ofText]
  cases opened : openRecord descriptor buffer with
  | error error => exact Nat.zero_le _
  | ok layout =>
    obtain ⟨read, some⟩ := of_openRecord opened
    obtain ⟨_, asked⟩ := Reading.walkAsking_collect ⟨layout, ⟨0, buffer⟩, 0, false⟩ []
    simp only [Except.map, ← asked]
    exact Reading.pays.asked_ofText _ read _ fun _ _ => some

theorem fillAsking_fst (descriptor : String) (buffer : List UInt8) (slots : List Value) :
    (fillAsking descriptor buffer slots).1 = unpackInto descriptor buffer slots := by
  rw [fillAsking, unpackInto]
  cases openRecord descriptor buffer with
  | error error => rfl
  | ok layout =>
    simp only [Filling.run]
    rw [← Layout.foldAsking_fst]
    rcases Layout.foldAsking _ _ layout _ with ⟨_ | _, _⟩ <;> rfl

theorem fillAsking_snd (descriptor : String) (buffer : List UInt8) (slots : List Value) :
    (fillAsking descriptor buffer slots).2 ≤
      (Text.bytes descriptor).length + buffer.length + 1 := by
  rw [fillAsking]
  cases opened : openRecord descriptor buffer with
  | error error => exact Nat.zero_le _
  | ok layout =>
    obtain ⟨read, some⟩ := of_openRecord opened
    have bounded := Filling.pays.asked_ofText
      (fun filling error => (.unpack (.descriptor error), filling.slots)) read
      ⟨⟨0, buffer⟩, 0, [], slots⟩ fun _ _ => some
    simp only
    split <;> rename_i walked <;> rwa [walked] at bounded

theorem sizeAsking_fst (descriptor : String) (values : List Value) :
    (sizeAsking descriptor values).1 = packedSize descriptor values := by
  rw [sizeAsking, packedSize]
  cases Layout.ofText descriptor with
  | error error => rfl
  | ok layout =>
    simp only [Sizing.run]
    rw [← Layout.foldAsking_fst]

theorem sizeAsking_snd (descriptor : String) (values : List Value) :
    (sizeAsking descriptor values).2 ≤ (Text.bytes descriptor).length + values.length + 1 := by
  rw [sizeAsking]
  cases read : Layout.ofText descriptor with
  | error error => exact Nat.zero_le _
  | ok layout =>
    refine (Sizing.pays values.length).asked_ofText _ read ⟨values, 0, 0⟩ ?_
    intro next passed
    obtain ⟨_, _, ⟨skips, _⟩ | ⟨_, _, _, taken, _⟩⟩ := Sizing.step_cases passed
    · cases skips
    · simp only at taken
      simp [taken]

/-- Whatever its counts say, a descriptor is asked for no more fields than it and the buffer have
bytes, and one: when the values of a record are read until the end or the first failure, and when
they are read into slots. So there are no more values than bytes in both. When values are sized,
it is asked for no more than it has bytes and there are values, and one. Counting the fields
changes none of the answers. -/
theorem asked_fields_bounded (descriptor : String) :
    (∀ buffer : List UInt8,
      (unpackAsking descriptor buffer).1 = unpack descriptor buffer ∧
      (unpackAsking descriptor buffer).2 ≤
        (Text.bytes descriptor).length + buffer.length + 1 ∧
      ∀ values, unpack descriptor buffer = .ok values →
        values.length ≤ (Text.bytes descriptor).length + buffer.length) ∧
    (∀ (buffer : List UInt8) (slots : List Value),
      (fillAsking descriptor buffer slots).1 = unpackInto descriptor buffer slots ∧
      (fillAsking descriptor buffer slots).2 ≤
        (Text.bytes descriptor).length + buffer.length + 1) ∧
    ∀ values : List Value,
      (sizeAsking descriptor values).1 = packedSize descriptor values ∧
      (sizeAsking descriptor values).2 ≤
        (Text.bytes descriptor).length + values.length + 1 := by
  refine ⟨fun buffer => ⟨unpackAsking_fst _ _, unpackAsking_snd _ _, ?_⟩,
    fun buffer slots => ⟨fillAsking_fst _ _ _, fillAsking_snd _ _ _⟩,
    fun values => ⟨sizeAsking_fst _ _, sizeAsking_snd _ _⟩⟩
  intro values read
  have bounded := unpackAsking_snd descriptor buffer
  rw [← unpackAsking_fst, unpackAsking] at read
  rw [unpackAsking] at bounded
  cases made : Unpacker.ofText descriptor buffer with
  | error error =>
    rw [made] at read
    cases read
  | ok unpacker =>
    rw [made] at read bounded
    have fewer := Unpacker.length_of_collectAsking (Prod.ext read rfl)
    exact Nat.le_of_lt_succ (Nat.lt_of_lt_of_le fewer bounded)

end Record

end OrderPack
