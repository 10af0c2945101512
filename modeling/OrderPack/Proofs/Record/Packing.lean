import OrderPack.Proofs.Descriptor.Fields
import OrderPack.Proofs.Record.Spelling
import OrderPack.Record.Pack

/-! Packing walks the fields twice, and the two walks agree. `Packed` says what record
the values make without reference to either walk: the sizing walk succeeds just when
there is such a record within bounds, and the writing walk then writes it. Nothing can
go wrong between the two, so the failures that only the second walk has are never seen. -/
namespace OrderPack

/-- The record that values make in a row of fields. Padding takes no value, and what is
left of the values after the last field takes no part. -/
inductive Packed : List Field → List Value → List UInt8 → Prop where
  | ended : Packed [] values []
  | padding {field : Field} (skips : field.holdsValue = false)
      (later : Packed fields values bytes) :
      Packed (field :: fields) values (Field.zeros field.size ++ bytes)
  | value {field : Field} {value : Value} {front : List UInt8} (holds : field.holdsValue = true)
      (spelt : field.Spells value front) (later : Packed fields values bytes) :
      Packed (field :: fields) (value :: values) (front ++ bytes)

/-- Behind the last field stands nothing. -/
theorem Packed.nothing_behind (packed : Packed fields values bytes) (last : fields = []) :
    bytes = [] := by
  cases packed with
  | ended => rfl
  | padding | value => cases last

/-- Values behind those that the fields take change nothing. -/
theorem Packed.with_more (packed : Packed fields values bytes) (extra : List Value) :
    Packed fields (values ++ extra) bytes := by
  induction packed with
  | ended => exact .ended
  | padding skips _ ih => exact .padding skips ih
  | value holds spelt _ ih => exact .value holds spelt ih

/-- A record goes on where its values have come to by then. -/
theorem Packed.append {first second : List Field} {values : List Value} {front back : List UInt8}
    (leading : Packed first values front)
    (following : Packed second (values.drop (first.countP Field.holdsValue)) back) :
    Packed (first ++ second) values (front ++ back) := by
  induction leading with
  | ended => exact following
  | padding skips _ ih =>
    rw [List.countP_cons_of_neg (Bool.eq_false_iff.mp skips)] at following
    rw [List.append_assoc]
    exact .padding skips (ih following)
  | value holds spelt _ ih =>
    rw [List.countP_cons_of_pos holds, List.drop_succ_cons] at following
    rw [List.append_assoc]
    exact .value holds spelt (ih following)

/-- A record of two rows of fields is a record of the first and one of the second. -/
theorem Packed.of_append {first second : List Field} {values : List Value} {bytes : List UInt8}
    (packed : Packed (first ++ second) values bytes) :
    ∃ front back, bytes = front ++ back ∧ Packed first values front ∧
      Packed second (values.drop (first.countP Field.holdsValue)) back := by
  induction first generalizing values bytes with
  | nil => exact ⟨[], bytes, rfl, .ended, packed⟩
  | cons field fields ih =>
    cases packed with
    | padding skips later =>
      obtain ⟨front, back, rfl, leading, following⟩ := ih later
      refine ⟨Field.zeros field.size ++ front, back, ?_, .padding skips leading, ?_⟩
      · rw [List.append_assoc]
      · rwa [List.countP_cons_of_neg (Bool.eq_false_iff.mp skips)]
    | value holds spelt later =>
      obtain ⟨front, back, rfl, leading, following⟩ := ih later
      refine ⟨_, back, ?_, .value holds spelt leading, ?_⟩
      · rw [List.append_assoc]
      · rwa [List.countP_cons_of_pos holds, List.drop_succ_cons]

namespace Record

/-- What has its place in a record has a length that is a machine word. -/
theorem lt_word_of_short (short : count ≤ maxLength) : count < UInt64.size :=
  Nat.lt_of_le_of_lt short (by decide)

namespace Sizing

theorem grow_eq_ok {sizing next : Sizing} {values : List Value} {size : Nat}
    (grew : sizing.grow values size = .ok next) :
    next.total ≤ maxLength ∧ next.field = sizing.field + 1 ∧ next.values = values ∧
      next.total = sizing.total + size := by
  simp only [grow] at grew
  split at grew
  · cases grew
    exact ⟨‹_›, rfl, rfl, rfl⟩
  · cases grew

theorem grow_eq_error {sizing : Sizing} {values : List Value} {size : Nat} {error : PackError}
    (outgrown : sizing.grow values size = .error error) :
    maxLength < sizing.total + size ∧ error = .tooLong sizing.field := by
  simp only [grow] at outgrown
  split at outgrown
  · cases outgrown
  · cases outgrown
    exact ⟨Nat.lt_of_not_le ‹_›, rfl⟩

/-- A field is passed only with a value it takes, if it takes any, and while the record
stays in bounds. -/
theorem step_cases {given : Nat} {sizing next : Sizing} {field : Field}
    (stepped : sizing.step given field = .ok next) :
    next.total ≤ maxLength ∧ next.field = sizing.field + 1 ∧
      (field.holdsValue = false ∧ next.values = sizing.values ∧
          next.total = sizing.total + field.size ∨
        field.holdsValue = true ∧ ∃ value front, sizing.values = value :: next.values ∧
          field.Spells value front ∧ next.total = sizing.total + front.length) := by
  unfold step at stepped
  split at stepped
  · rename_i holds
    split at stepped
    · cases stepped
    · rename_i value values found
      rw [Field.encodedSize_eq] at stepped
      cases written : field.encode value with
      | error misfit =>
        rw [written] at stepped
        cases stepped
      | ok front =>
        rw [written] at stepped
        obtain ⟨bounded, count, left, total⟩ := grow_eq_ok stepped
        refine ⟨bounded, count,
          .inr ⟨holds, value, front, ?_, Field.encode_eq_ok_iff.mp written, total⟩⟩
        rw [found, left]
  · rename_i skips
    obtain ⟨bounded, count, left, total⟩ := grow_eq_ok stepped
    exact ⟨bounded, count, .inl ⟨Bool.not_eq_true _ |>.mp skips, left, total⟩⟩

/-- Where the sizing gets to the end, there is a record of that size. -/
theorem foldlM_packed {given : Nat} {fields : List Field} {sizing last : Sizing}
    (passed : fields.foldlM (step given) sizing = .ok last) (room : sizing.total ≤ maxLength) :
    ∃ bytes, Packed fields sizing.values bytes ∧
      last.total = sizing.total + bytes.length ∧ last.total ≤ maxLength := by
  induction fields generalizing sizing with
  | nil =>
    cases passed
    exact ⟨[], .ended, rfl, room⟩
  | cons field fields ih =>
    obtain ⟨next, stepped, onwards⟩ := Layout.foldlM_cons_eq_ok passed
    obtain ⟨bounded, _, kind⟩ := step_cases stepped
    obtain ⟨bytes, packed, total, within⟩ := ih onwards bounded
    rcases kind with ⟨skips, left, grown⟩ | ⟨holds, value, front, left, spelt, grown⟩
    · refine ⟨Field.zeros field.size ++ bytes, .padding skips (left ▸ packed), ?_, within⟩
      rw [total, grown, List.length_append, Field.length_zeros, Nat.add_assoc]
    · refine ⟨front ++ bytes, ?_, ?_, within⟩
      · rw [left]
        exact .value holds spelt packed
      · rw [total, grown, List.length_append, Nat.add_assoc]

/-- The sizing of a record within bounds gets to the end. -/
theorem foldlM_of_packed {fields : List Field} {values : List Value} {bytes : List UInt8}
    (packed : Packed fields values bytes) (given place total : Nat)
    (room : total + bytes.length ≤ maxLength) :
    ∃ last, fields.foldlM (step given) ⟨values, place, total⟩ = .ok last ∧
      last.total = total + bytes.length := by
  induction packed generalizing place total with
  | ended => exact ⟨_, rfl, rfl⟩
  | @padding fields values bytes field skips later ih =>
    rw [List.length_append, Field.length_zeros, ← Nat.add_assoc] at room ⊢
    obtain ⟨last, passed, sum⟩ := ih (place + 1) (total + field.size) room
    refine ⟨last, ?_, sum⟩
    rw [List.foldlM_cons, step, skips, if_neg Bool.false_ne_true, grow,
      if_pos (Nat.le_trans (Nat.le_add_right ..) room)]
    exact passed
  | @value fields values bytes field value front holds spelt later ih =>
    rw [List.length_append, ← Nat.add_assoc] at room ⊢
    obtain ⟨last, passed, sum⟩ := ih (place + 1) (total + front.length) room
    refine ⟨last, ?_, sum⟩
    have sized : field.encodedSize value = .ok front.length := by
      rw [Field.encodedSize_eq, Field.encode_eq_ok_iff.mpr spelt]
      rfl
    rw [List.foldlM_cons, step, if_pos holds]
    simp only [sized]
    rw [grow, if_pos (Nat.le_trans (Nat.le_add_right ..) room)]
    exact passed

/-- A size is that of a record of sound fields, within bounds. -/
theorem packed_of_run {layout : Layout} {values : List Value} {last : Sizing}
    (sized : run layout values = .ok last) :
    layout.fault? = none ∧ ∃ bytes, Packed layout.leading values bytes ∧
      bytes.length = last.total ∧ last.total ≤ maxLength := by
  obtain ⟨sound, passed⟩ := Layout.foldFields_eq_ok_iff.mp sized
  obtain ⟨bytes, packed, total, within⟩ := foldlM_packed passed (Nat.zero_le _)
  exact ⟨sound, bytes, packed, by rw [total, Nat.zero_add], within⟩

/-- A record of sound fields has its size found, if this is within bounds. -/
theorem run_of_packed {layout : Layout} {values : List Value} {bytes : List UInt8}
    (sound : layout.fault? = none) (packed : Packed layout.leading values bytes)
    (room : bytes.length ≤ maxLength) :
    ∃ last, run layout values = .ok last ∧ last.total = bytes.length := by
  obtain ⟨last, passed, total⟩ :=
    foldlM_of_packed packed values.length 0 0 (by rwa [Nat.zero_add])
  exact ⟨last, Layout.foldFields_eq_ok_iff.mpr ⟨sound, passed⟩, by rw [total, Nat.zero_add]⟩

/-- A field is not passed for want of a value, for a value that does not suit it, or for
the length of what it adds. -/
theorem step_refuses {given : Nat} {sizing : Sizing} {field : Field} {error : PackError}
    (failed : sizing.step given field = .error error) :
    (field.holdsValue = true ∧ sizing.values = [] ∧ error = .missing sizing.field given) ∨
    (field.holdsValue = true ∧ ∃ value cause, sizing.values[0]? = some value ∧
        field.encode value = .error cause ∧ error = .misfit sizing.field field.tag cause) ∨
    (∃ front, Packed [field] sizing.values front ∧ maxLength < sizing.total + front.length ∧
        error = .tooLong sizing.field) := by
  unfold step at failed
  split at failed
  · rename_i holds
    split at failed
    · rename_i none
      cases failed
      exact .inl ⟨holds, none, rfl⟩
    · rename_i value values found
      rw [Field.encodedSize_eq] at failed
      cases written : field.encode value with
      | error cause =>
        rw [written] at failed
        cases failed
        exact .inr (.inl ⟨holds, value, cause, by rw [found]; rfl, written, rfl⟩)
      | ok front =>
        rw [written] at failed
        obtain ⟨long, rfl⟩ := grow_eq_error failed
        refine .inr (.inr ⟨front, ?_, long, rfl⟩)
        rw [found, ← List.append_nil front]
        exact .value holds (Field.encode_eq_ok_iff.mp written) .ended
  · rename_i skips
    obtain ⟨long, rfl⟩ := grow_eq_error failed
    refine .inr (.inr ⟨Field.zeros field.size, ?_, by rwa [Field.length_zeros], rfl⟩)
    rw [← List.append_nil (Field.zeros field.size)]
    exact .padding (Bool.not_eq_true _ |>.mp skips) .ended

theorem step_error {given : Nat} {sizing : Sizing} {field : Field} {error : PackError}
    (failed : sizing.step given field = .error error) : error.report.kind ≠ .internal := by
  rcases step_refuses failed with ⟨_, _, rfl⟩ | ⟨_, _, _, _, _, rfl⟩ | ⟨_, _, _, rfl⟩ <;>
  exact fun same => nomatch same

theorem run_error {layout : Layout} {values : List Value} {error : PackError}
    (failed : run layout values = .error error) : error.report.kind ≠ .internal := by
  rcases Layout.foldFields_error failed with ⟨sizing, field, stepped⟩ | ⟨_, cause, rfl⟩
  · exact step_error stepped
  · exact fun same => nomatch same

end Sizing

namespace Writing

/-- Writing a record that the values make puts it after what the buffer held. -/
theorem foldlM_of_packed {fields : List Field} {values : List Value} {bytes : List UInt8}
    (packed : Packed fields values bytes) (buffer : List UInt8) :
    ∃ left, fields.foldlM step ⟨values, buffer⟩ = .ok ⟨left, buffer ++ bytes⟩ := by
  induction packed generalizing buffer with
  | @ended values => exact ⟨values, by rw [List.append_nil]; rfl⟩
  | @padding fields values bytes field skips later ih =>
    obtain ⟨left, passed⟩ := ih (buffer ++ Field.zeros field.size)
    refine ⟨left, ?_⟩
    rw [List.foldlM_cons, step, skips, if_neg Bool.false_ne_true, ← List.append_assoc]
    exact passed
  | @value fields values bytes field value front holds spelt later ih =>
    obtain ⟨left, passed⟩ := ih (buffer ++ front)
    refine ⟨left, ?_⟩
    rw [List.foldlM_cons, step, if_pos holds, ← List.append_assoc]
    simp only [Field.encode_eq_ok_iff.mpr spelt]
    exact passed

theorem run_of_packed {layout : Layout} {values : List Value} {bytes : List UInt8}
    (sound : layout.fault? = none) (packed : Packed layout.leading values bytes)
    (buffer : List UInt8) :
    ∃ left, run layout values buffer = .ok ⟨left, buffer ++ bytes⟩ := by
  obtain ⟨left, passed⟩ := foldlM_of_packed packed buffer
  exact ⟨left, Layout.foldFields_eq_ok_iff.mpr ⟨sound, passed⟩⟩

end Writing

/-- What becomes of a record depends on its size alone: where it has none the failure is
the sizing's own, an empty record is refused, and any other is written in full over
whatever the buffer held. -/
theorem packInto_cases (descriptor : String) (values : List Value) (buffer : List UInt8) :
    (∃ error, packedSize descriptor values = .error error ∧
        packInto descriptor values buffer = (.error error, [])) ∨
      (packedSize descriptor values = .ok 0 ∧
        packInto descriptor values buffer = (.error .empty, [])) ∨
      ∃ fields bytes, packedSize descriptor values = .ok bytes.length ∧ bytes ≠ [] ∧
        packInto descriptor values buffer = (.ok (), bytes) ∧
        Descriptor.fields descriptor = .ok fields ∧ Packed fields values bytes ∧
        bytes.length ≤ maxLength := by
  unfold packedSize packInto
  cases opened : Layout.ofText descriptor with
  | error error => exact .inl ⟨.descriptor error, rfl, rfl⟩
  | ok layout =>
    simp only
    cases sized : Sizing.run layout values with
    | error error => exact .inl ⟨error, rfl, rfl⟩
    | ok last =>
      simp only
      by_cases zero : last.total = 0
      · rw [if_pos zero]
        exact .inr (.inl ⟨congrArg Except.ok zero, rfl⟩)
      · obtain ⟨sound, bytes, packed, total, within⟩ := Sizing.packed_of_run sized
        obtain ⟨left, written⟩ := Writing.run_of_packed sound packed (buffer.take 0)
        rw [if_neg zero, written]
        refine .inr (.inr ⟨layout.leading, bytes, congrArg Except.ok total.symm, ?_, rfl,
          Descriptor.fields_eq_ok_iff.mpr ⟨layout, opened, sound, rfl⟩, packed, total ▸ within⟩)
        rintro rfl
        exact zero total.symm

/-- No failure of the sizing is the program's own fault. -/
theorem packedSize_error {descriptor : String} {values : List Value} {error : PackError}
    (failed : packedSize descriptor values = .error error) : error.report.kind ≠ .internal := by
  unfold packedSize at failed
  cases opened : Layout.ofText descriptor with
  | error cause =>
    rw [opened] at failed
    cases failed
    exact fun same => nomatch same
  | ok layout =>
    rw [opened] at failed
    cases sized : Sizing.run layout values with
    | error first =>
      simp only [sized] at failed
      cases failed
      exact Sizing.run_error sized
    | ok last =>
      simp only [sized] at failed
      cases failed

/-- A record is packed just when the values make one that has at least one byte and is
not too long. -/
theorem pack_eq_ok_iff {descriptor : String} {values : List Value} {bytes : List UInt8} :
    pack descriptor values = .ok bytes ↔
      ∃ fields, Descriptor.fields descriptor = .ok fields ∧ Packed fields values bytes ∧
        bytes ≠ [] ∧ bytes.length ≤ maxLength := by
  constructor
  · intro packs
    unfold pack at packs
    rcases packInto_cases descriptor values [] with ⟨error, _, failed⟩ | ⟨_, failed⟩ |
      ⟨fields, written, _, nonempty, done, read, packed, within⟩
    · rw [failed] at packs
      cases packs
    · rw [failed] at packs
      cases packs
    · rw [done] at packs
      cases packs
      exact ⟨fields, read, packed, nonempty, within⟩
  · rintro ⟨fields, read, packed, nonempty, within⟩
    obtain ⟨layout, opened, sound, rfl⟩ := Descriptor.fields_eq_ok_iff.mp read
    obtain ⟨last, sized, total⟩ := Sizing.run_of_packed sound packed within
    obtain ⟨left, written⟩ := Writing.run_of_packed sound packed []
    have positive : last.total ≠ 0 := by
      rw [total]
      exact fun zero => nonempty (List.eq_nil_of_length_eq_zero zero)
    simp only [pack, packInto, opened, sized, if_neg positive, List.take_nil, written,
      List.nil_append]

/-- What one buffer holds after a row of calls, each with its descriptor and values. -/
def refilled (buffer : List UInt8) (calls : List (String × List Value)) : List UInt8 :=
  calls.foldl (fun held call => (packInto call.1 call.2 held).2) buffer

/-- Sizing foretells what packing does. Its failures are those of the packing, a size of
zero is refused as an argument, and any other size is that of the record written. The
buffer ends up with the record or with nothing, whatever it went through before, and no
failure is internal. -/
theorem packInto_follows_packedSize (descriptor : String) (values : List Value)
    (buffer : List UInt8) (earlier : List (String × List Value)) :
    (packInto descriptor values buffer).1 =
      ((packedSize descriptor values).bind fun size =>
        if size = 0 then .error .empty else .ok ()) ∧
    PackError.empty.report.kind = .invalidArgument ∧
    (packInto descriptor values buffer).2.length =
      (packedSize descriptor values).toOption.getD 0 ∧
    packInto descriptor values buffer =
      ((pack descriptor values).map fun _ => (), (pack descriptor values).toOption.getD []) ∧
    (¬∃ error, (packInto descriptor values buffer).1 = .error error ∧
      error.report.kind = .internal) ∧
    refilled buffer (earlier ++ [(descriptor, values)]) =
      (pack descriptor values).toOption.getD [] := by
  have last : refilled buffer (earlier ++ [(descriptor, values)]) =
      (packInto descriptor values (refilled buffer earlier)).2 := by
    rw [refilled, List.foldl_append]
    rfl
  -- A buffer is cut off before it is looked at, so all calls are alike.
  have fresh : packInto descriptor values (refilled buffer earlier) =
      packInto descriptor values buffer := rfl
  have alone : packInto descriptor values [] = packInto descriptor values buffer := rfl
  rw [last, fresh, pack, alone]
  rcases packInto_cases descriptor values buffer with ⟨error, sized, failed⟩ |
    ⟨sized, failed⟩ | ⟨_, bytes, sized, nonempty, done, _⟩
  · rw [sized, failed]
    refine ⟨rfl, rfl, rfl, rfl, ?_, rfl⟩
    rintro ⟨_, ⟨⟩, internal⟩
    exact packedSize_error sized internal
  · rw [sized, failed]
    refine ⟨rfl, rfl, rfl, rfl, ?_, rfl⟩
    rintro ⟨_, ⟨⟩, internal⟩
    cases internal
  · rw [sized, done]
    refine ⟨?_, rfl, rfl, rfl, ?_, rfl⟩
    · exact (if_neg fun zero => nonempty (List.eq_nil_of_length_eq_zero zero)).symm
    · rintro ⟨_, ⟨⟩, _⟩

end Record

end OrderPack
