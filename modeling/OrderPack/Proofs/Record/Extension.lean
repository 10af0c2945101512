import OrderPack.Proofs.Record.Streaming
import OrderPack.Proofs.Record.Truncation
import OrderPack.Proofs.Varint.Extension

/-! A record with more bytes behind it. A field looks at its own bytes only, and so does
whatever finds fault with them; what is read of a record is therefore the same before any
rest, and so is the complaint about it, unless this was that bytes are missing. The one
field that asks where the buffer ends is the one that runs to it, and it stands last: it
takes the rest as well, and nothing is read after it that the rest could change. -/
namespace OrderPack

theorem Field.beforeNul_append {bytes : List UInt8}
    (closed : (beforeNul bytes).length < bytes.length) (suffix : List UInt8) :
    beforeNul (bytes ++ suffix) = beforeNul bytes := by
  rw [beforeNul, List.takeWhile_append]
  exact if_neg (Nat.ne_of_lt closed)

namespace Reader

/-- The second answer is the first with more bytes behind it, unless the first came of a
want of bytes. -/
def Extends (suffix : List UInt8) (read again : Except ReadError α × Reader) : Prop :=
  ¬RanShort read → again = (read.1, read.2.followedBy suffix)

theorem Extends.map {suffix : List UInt8} {read again : Except ReadError α × Reader}
    (same : Extends suffix read again) (make : α → β) :
    Extends suffix (read.1.map make, read.2) (again.1.map make, again.2) := by
  intro enough
  rw [same fun short => enough (short.map make)]

theorem takeBytes_extends (reader : Reader) (count : Nat) (suffix : List UInt8) :
    Extends suffix (reader.takeBytes count) ((reader.followedBy suffix).takeBytes count) := by
  intro fed
  by_cases enough : count ≤ reader.rest.length
  · rw [takeBytes, takeBytes, take_followedBy enough, take, if_pos enough]
    rfl
  · exact absurd (takeBytes_short (Nat.lt_of_not_le enough)) fed

theorem fixedText_extends (reader : Reader) (width : Nat) (suffix : List UInt8) :
    Extends suffix (reader.fixedText width) ((reader.followedBy suffix).fixedText width) := by
  intro fed
  by_cases enough : width ≤ reader.rest.length
  · rw [fixedText, fixedText, takeBytes, takeBytes, take_followedBy enough, take, if_pos enough]
    rfl
  · exact absurd (fixedText_short (Nat.lt_of_not_le enough)) fed

/-- Text ends at its first NUL, and a later one does not show. -/
theorem terminatedText_extends (reader : Reader) (suffix : List UInt8) :
    Extends suffix reader.terminatedText (reader.followedBy suffix).terminatedText := by
  intro fed
  by_cases closed : (Field.beforeNul reader.rest).length < reader.rest.length
  · have longer : (Field.beforeNul reader.rest).length < (reader.rest ++ suffix).length := by
      rw [List.length_append]
      exact Nat.lt_add_right _ closed
    simp only [terminatedText, followedBy, Field.beforeNul_append closed, if_pos closed,
      if_pos longer, List.drop_append_of_le_length (Nat.succ_le_of_lt closed)]
    cases text reader.offset (Field.beforeNul reader.rest) <;> rfl
  · refine absurd ⟨.unterminated reader.offset, reader, ?_, rfl⟩ fed
    simp only [terminatedText, if_neg closed]

theorem number_extends {suffix : List UInt8} {read again : Except Varint.Error (α × Reader)}
    (same : Varint.Extends suffix read again) (reader : Reader) (make : α → Value) :
    Extends suffix (reader.number make read) ((reader.followedBy suffix).number make again) := by
  intro fed
  rw [same fun starved => fed (number_starved starved reader make)]
  cases read <;> rfl

theorem sizedBytes_extends (reader : Reader) (suffix : List UInt8) :
    Extends suffix reader.sizedBytes (reader.followedBy suffix).sizedBytes := by
  intro fed
  have enough : ¬Varint.Starved (Varint.decodeNat reader) :=
    fun starved => fed (sizedBytes_starved starved)
  have same := Varint.decodeNat_extends reader suffix enough
  rw [sizedBytes] at fed ⊢
  rw [sizedBytes, same]
  cases decoded : Varint.decodeNat reader with
  | error cause => rfl
  | ok found =>
    rw [decoded] at fed
    exact (takeBytes_extends found.2 found.1 suffix).map Value.bytes fed

end Reader

namespace Field

/-- A field that tells its own end looks no further. -/
theorem read_extends {field : Field} (closed : ¬field.RunsToEnd) (reader : Reader)
    (suffix : List UInt8) :
    Reader.Extends suffix (field.read reader) (field.read (reader.followedBy suffix)) := by
  obtain ⟨tag, size, sized⟩ := field
  cases tag with
  | padding => exact fun _ => rfl
  | fixedText => exact reader.fixedText_extends size suffix
  | text =>
    cases sized with
    | true => exact reader.fixedText_extends size suffix
    | false => exact reader.terminatedText_extends suffix
  | raw =>
    cases sized with
    | true => exact (reader.takeBytes_extends size suffix).map Value.bytes
    | false => exact absurd ⟨rfl, rfl⟩ closed
  | sizedRaw => exact reader.sizedBytes_extends suffix
  | bits => exact (reader.takeBytes_extends 1 suffix).map _
  | scalar scalar =>
    cases scalar with
    | uint8 | int8 => exact (reader.takeBytes_extends 1 suffix).map _
    | int width =>
      rw [read_int, read_int]
      exact Reader.number_extends (Varint.decodeSigned_extends reader suffix) reader .int64
    | uint width =>
      rw [read_uint, read_uint]
      exact Reader.number_extends (Varint.decodeUnsigned_extends reader suffix) reader .uint64
    | recordId => exact (reader.takeBytes_extends 8 suffix).map _

end Field

namespace Record

/-- It was not for want of input that this ended, if it ended badly. -/
def Fed (answer : Except UnpackError α) : Prop :=
  ∀ error, answer = .error error → error.report.kind ≠ .truncatedInput

theorem Fed.ok (answer : α) : Fed (.ok answer) := fun _ failed => nomatch failed

namespace Reading

/-- The same reading with more bytes behind all that lie ahead. -/
def followedBy (reading : Reading) (suffix : List UInt8) : Reading :=
  { reading with reader := reading.reader.followedBy suffix }

theorem step_followedBy {field : Field} (closed : ¬field.RunsToEnd) {reading : Reading}
    (fed : Fed (reading.step field)) (suffix : List UInt8) :
    (reading.followedBy suffix).step field = (reading.step field).map (followedBy · suffix) := by
  obtain ⟨reader, place, values⟩ := reading
  cases holds : field.holdsValue with
  | true =>
    have same := Field.read_extends closed reader suffix
    rw [step, if_pos holds] at fed ⊢
    rw [step, if_pos holds]
    simp only [followedBy]
    rw [same]
    · cases field.read reader with
      | mk answer after => cases answer <;> rfl
    · rintro ⟨cause, left, ran, kind⟩
      rw [ran] at fed
      exact fed _ rfl kind
  | false =>
    rw [step_of_skips holds] at fed ⊢
    rw [followedBy, step_of_skips holds]
    by_cases enough : field.size ≤ reader.rest.length
    · rw [Reader.take_followedBy enough]
      cases reader.take field.size <;> rfl
    · rw [Reader.take, if_neg enough] at fed
      exact absurd rfl (fed _ rfl)

/-- Fields that tell their own ends look no further than they reach. -/
theorem foldlM_followedBy {fields : List Field} (closed : ∀ field ∈ fields, ¬field.RunsToEnd)
    {reading : Reading} (fed : Fed (fields.foldlM step reading)) (suffix : List UInt8) :
    fields.foldlM step (reading.followedBy suffix) =
      (fields.foldlM step reading).map (followedBy · suffix) := by
  induction fields generalizing reading with
  | nil => rfl
  | cons field fields ih =>
    obtain ⟨first, later⟩ := List.forall_mem_cons.mp closed
    rw [List.foldlM_cons] at fed ⊢
    rw [List.foldlM_cons]
    cases stepped : step reading field with
    | error error =>
      rw [stepped] at fed
      rw [step_followedBy first (by rw [stepped]; exact fed), stepped]
      rfl
    | ok next =>
      rw [stepped] at fed
      rw [step_followedBy first (by rw [stepped]; exact .ok next), stepped]
      exact ih later fed

/-- A reading that has taken all that lay ahead as one value. -/
def finish (reading : Reading) : Reading :=
  ⟨⟨reading.reader.offset + reading.reader.rest.length, []⟩, reading.field + 1,
    reading.values ++ [.bytes reading.reader.rest]⟩

theorem foldlM_finish {last : Field} (toEnd : last.RunsToEnd) (earlier : List Field)
    (reading : Reading) :
    (earlier ++ [last]).foldlM step reading = (earlier.foldlM step reading).map finish := by
  rw [List.foldlM_append]
  cases earlier.foldlM step reading with
  | error error => rfl
  | ok reached =>
    have finishes : step reached last = .ok reached.finish := step_runsToEnd toEnd ..
    change [last].foldlM step reached = .ok reached.finish
    rw [List.foldlM_cons, finishes]
    rfl

/-- The values of one reading are those of another with more bytes ahead of it: the same,
but for bytes that run to the end of the buffer. -/
def Lengthened (fields : List Field) (suffix : List UInt8) (read again : List Value) : Prop :=
  ((¬∃ field ∈ fields, field.RunsToEnd) → again = read) ∧
    ((∃ field ∈ fields, field.RunsToEnd) → ∃ earlier content,
      read = earlier ++ [.bytes content] ∧ again = earlier ++ [.bytes (content ++ suffix)])

/-- The fields of a descriptor are passed, or not passed, before any rest as without it. -/
theorem foldlM_lengthened {fields : List Field} (arranged : Arranged fields) {reading : Reading}
    (fed : Fed (fields.foldlM step reading)) (suffix : List UInt8) :
    ∃ further : Reading → Reading,
      fields.foldlM step (reading.followedBy suffix) =
        (fields.foldlM step reading).map further ∧
      ∀ last, fields.foldlM step reading = .ok last →
        Lengthened fields suffix last.values (further last).values := by
  by_cases opens : ∃ field ∈ fields, field.RunsToEnd
  · obtain ⟨earlier, last, rfl, toEnd, tell⟩ := arranged.runsToEnd_last opens
    rw [foldlM_finish toEnd] at fed ⊢
    rw [foldlM_finish toEnd]
    cases ran : earlier.foldlM step reading with
    | error error =>
      rw [ran] at fed
      refine ⟨id, ?_, fun _ passed => nomatch passed⟩
      rw [foldlM_followedBy (fun field found => (tell field found).2) (by rw [ran]; exact fed), ran]
      rfl
    | ok reached =>
      refine ⟨fun _ => (reached.followedBy suffix).finish, ?_, ?_⟩
      · have passes : Fed (earlier.foldlM step reading) := by
          rw [ran]
          exact .ok reached
        rw [foldlM_followedBy (fun field found => (tell field found).2) passes, ran]
        rfl
      · intro last passed
        cases passed
        exact ⟨fun closed => absurd opens closed,
          fun _ => ⟨reached.values, reached.reader.rest, rfl, rfl⟩⟩
  · refine ⟨(followedBy · suffix), ?_, ?_⟩
    · exact foldlM_followedBy (fun field found toEnd => opens ⟨field, found, toEnd⟩) fed suffix
    · exact fun last _ => ⟨fun _ => rfl, fun toEnd => absurd toEnd opens⟩

end Reading

/-- Reading a record is a walk over the fields before the first fault of its descriptor, and
then over this fault. -/
theorem unpack_eq_leading {descriptor : String} {layout : Layout} {buffer : List UInt8}
    (opened : Layout.ofText descriptor = .ok layout) (nonempty : buffer ≠ []) :
    unpack descriptor buffer =
      (layout.leading.foldlM Reading.step ⟨⟨0, buffer⟩, 0, []⟩).bind fun last =>
        match layout.fault? with
        | none => .ok last.values
        | some cause => .error (.descriptor cause) := by
  rw [unpack, openRecord, List.isEmpty_eq_false_iff.mpr nonempty, if_neg Bool.false_ne_true,
    opened]
  simp only [Except.mapError, Reading.run, Layout.foldFields_eq]
  cases layout.leading.foldlM Reading.step ⟨⟨0, buffer⟩, 0, []⟩ with
  | error error => rfl
  | ok last =>
    simp only [Except.bind]
    cases layout.fault? <;> rfl

theorem unpack_of_ofText_error {descriptor : String} {cause : Descriptor.Error}
    (refused : Layout.ofText descriptor = .error cause) {buffer : List UInt8}
    (nonempty : buffer ≠ []) : unpack descriptor buffer = .error (.descriptor cause) := by
  rw [unpack, openRecord, List.isEmpty_eq_false_iff.mpr nonempty, if_neg Bool.false_ne_true,
    refused]
  rfl

/-- A record that can be read can be read before any rest, and a record at fault is at fault
in the same way. -/
theorem unpack_lengthened (descriptor : String) {buffer : List UInt8} (nonempty : buffer ≠ [])
    (fed : Fed (unpack descriptor buffer)) (suffix : List UInt8) :
    ∃ further : List Value → List Value,
      unpack descriptor (buffer ++ suffix) = (unpack descriptor buffer).map further ∧
      ∀ values, unpack descriptor buffer = .ok values →
        Reading.Lengthened (Descriptor.leading descriptor) suffix values (further values) := by
  have longer : buffer ++ suffix ≠ [] := List.append_ne_nil_of_left_ne_nil nonempty suffix
  cases opened : Layout.ofText descriptor with
  | error cause =>
    rw [unpack_of_ofText_error opened nonempty, unpack_of_ofText_error opened longer]
    exact ⟨id, rfl, fun _ read => nomatch read⟩
  | ok layout =>
    rw [unpack_eq_leading opened nonempty] at fed ⊢
    rw [unpack_eq_leading opened longer, Descriptor.leading_of_ofText opened]
    have runs : Fed (layout.leading.foldlM Reading.step ⟨⟨0, buffer⟩, 0, []⟩) := by
      intro error failed
      rw [failed] at fed
      exact fed error rfl
    obtain ⟨further, again, lengthened⟩ :=
      Reading.foldlM_lengthened (Layout.ofText_arranged opened) runs suffix
    change layout.leading.foldlM Reading.step ⟨⟨0, buffer ++ suffix⟩, 0, []⟩ = _ at again
    rw [again]
    cases ran : layout.leading.foldlM Reading.step ⟨⟨0, buffer⟩, 0, []⟩ with
    | error error => exact ⟨id, rfl, fun _ read => nomatch read⟩
    | ok last =>
      refine ⟨fun _ => (further last).values, ?_, ?_⟩
      · simp only [Except.bind, Except.map]
        cases layout.fault? <;> rfl
      · intro values read
        simp only [Except.bind] at read
        cases sound : layout.fault? with
        | some cause =>
          rw [sound] at read
          cases read
        | none =>
          rw [sound] at read
          cases read
          exact lengthened last ran

/-- Bytes behind a record make no difference to what is read of it, or to what is found
wrong with it, unless that was that bytes are missing; only where the record runs to the end
of its buffer do they become part of its last value. -/
theorem unpack_append (descriptor : String) {buffer : List UInt8} (nonempty : buffer ≠ [])
    (suffix : List UInt8) :
    (∀ values, unpack descriptor buffer = .ok values →
      (Descriptor.openEnded descriptor = false →
        unpack descriptor (buffer ++ suffix) = .ok values) ∧
      (Descriptor.openEnded descriptor = true →
        ∃ earlier content, values = earlier ++ [.bytes content] ∧
          unpack descriptor (buffer ++ suffix) = .ok (earlier ++ [.bytes (content ++ suffix)]))) ∧
    ∀ error, unpack descriptor buffer = .error error → error.report.kind ≠ .truncatedInput →
      unpack descriptor (buffer ++ suffix) = .error error := by
  constructor
  · intro values read
    have fed : Fed (unpack descriptor buffer) := by
      rw [read]
      exact .ok values
    obtain ⟨further, again, lengthened⟩ := unpack_lengthened descriptor nonempty fed suffix
    obtain ⟨_, fields, known⟩ := fields_of_unpack read
    have opens := Descriptor.openEnded_iff known
    obtain ⟨same, grown⟩ := lengthened values read
    rw [Descriptor.leading_eq known] at same grown
    rw [read] at again
    constructor
    · intro closed
      have kept : further values = values :=
        same fun toEnd => Bool.eq_false_iff.mp closed (opens.mpr toEnd)
      exact again.trans (congrArg Except.ok kept)
    · intro opened
      obtain ⟨earlier, content, whole, more⟩ := grown (opens.mp opened)
      refine ⟨earlier, content, whole, ?_⟩
      exact again.trans (congrArg Except.ok more)
  · intro error failed enough
    have fed : Fed (unpack descriptor buffer) := by
      intro other found
      cases failed.symm.trans found
      exact enough
    obtain ⟨further, again, _⟩ := unpack_lengthened descriptor nonempty fed suffix
    rw [again, failed]
    rfl

/-- Trailing bytes behind a record that tells its own end, behind one that runs to the end of
its buffer, and behind a text that is not valid. -/
theorem unpack_append_three_endings :
    unpack "xQ" ([0, 133] ++ [255]) = .ok [.uint64 5] ∧
    (∃ earlier content, [.uint64 5, .bytes [7]] = earlier ++ [.bytes content] ∧
      unpack "Qu" ([133, 7] ++ [0]) = .ok (earlier ++ [.bytes (content ++ [0])])) ∧
    unpack "xS" ([0, 195, 0] ++ [169, 0]) =
      .error (.field 1 (.notText 1 (.incomplete 0))) := by
  refine ⟨?_, ?_, ?_⟩
  · exact ((unpack_append "xQ" (List.cons_ne_nil 0 [133]) [255]).1 [.uint64 5]
      (by with_unfolding_all rfl)).1 (by with_unfolding_all rfl)
  · exact ((unpack_append "Qu" (List.cons_ne_nil 133 [7]) [0]).1 [.uint64 5, .bytes [7]]
      (by with_unfolding_all rfl)).2 (by with_unfolding_all rfl)
  · exact (unpack_append "xS" (List.cons_ne_nil 0 [195, 0]) [169, 0]).2 _
      (by with_unfolding_all rfl) (by decide)

end Record

end OrderPack
