import OrderPack.Proofs.Record.Acceptance
import OrderPack.Proofs.Record.Slots

/-! Whether a descriptor is valid, as the calls that use it find out. None of them looks at
the whole descriptor first: each goes through the fields, and meets a fault when it comes to
it. It may have failed by then for another reason, so that what a call says of a malformed
descriptor depends on what else it is given. But it cannot come to its end without passing
the fault, and where there is none no step on the way finds one. -/
namespace OrderPack.Record

/-- Of all failures to pack only a fault of the descriptor is an invalid format. -/
theorem PackError.descriptor_of_kind {error : PackError}
    (invalid : error.report.kind = .invalidFormat) : ∃ cause, error = .descriptor cause := by
  cases error with
  | descriptor cause => exact ⟨cause, rfl⟩
  | missing | misfit | tooLong | empty | valuesShrank | unwritable => cases invalid

theorem UnpackError.descriptor_of_kind {error : UnpackError}
    (invalid : error.report.kind = .invalidFormat) : ∃ cause, error = .descriptor cause := by
  cases error with
  | descriptor cause => exact ⟨cause, rfl⟩
  | emptyBuffer => cases invalid
  | field place cause =>
    cases cause with
    | noValue | shortage | unterminated | notText => cases invalid
    | varint cause => cases cause <;> cases invalid

/-- A descriptor is not found at fault by those who size, pack or read records by it. -/
structure NeverRefused (descriptor : String) : Prop where
  sizing : ∀ values error, packedSize descriptor values = .error error →
    error.report.kind ≠ .invalidFormat
  packing : ∀ values error, pack descriptor values = .error error →
    error.report.kind ≠ .invalidFormat
  refilling : ∀ values buffer error held, packInto descriptor values buffer = (.error error, held) →
    error.report.kind ≠ .invalidFormat
  reading : ∀ buffer error, unpack descriptor buffer = .error error →
    error.report.kind ≠ .invalidFormat
  filling : ∀ buffer slots error after, unpackInto descriptor buffer slots = (.error error, after) →
    error.report.kind ≠ .invalidFormat

/-- No record is sized, packed or read by a descriptor. -/
structure AlwaysFails (descriptor : String) : Prop where
  sizing : ∀ values, ∃ error, packedSize descriptor values = .error error
  packing : ∀ values, ∃ error, pack descriptor values = .error error
  refilling : ∀ values buffer, ∃ error held, packInto descriptor values buffer = (.error error, held)
  reading : ∀ buffer, ∃ error, unpack descriptor buffer = .error error
  filling : ∀ buffer slots, ∃ error after,
    unpackInto descriptor buffer slots = (.error error, after)

theorem fields_of_packedSize_error {descriptor : String} {values : List Value}
    {cause : Descriptor.Error} (failed : packedSize descriptor values = .error (.descriptor cause)) :
    Descriptor.fields descriptor = .error cause :=
  (pack_eq_descriptor_error_iff.mp (pack_eq_error_iff.mpr (.inl failed))).2

/-- The sizing comes to its end only if there is no fault. -/
theorem fields_of_packedSize {descriptor : String} {values : List Value}
    (sized : packedSize descriptor values = .ok total) :
    ∃ fields, Descriptor.fields descriptor = .ok fields := by
  rw [packedSize_eq] at sized
  cases known : Descriptor.fields descriptor with
  | ok fields => exact ⟨fields, rfl⟩
  | error cause =>
    rw [known] at sized
    cases walked : (Descriptor.leading descriptor).foldlM (Sizing.step values.length)
        ⟨values, 0, 0⟩ with
    | error error | ok last =>
      rw [walked] at sized
      cases sized

theorem Reading.step_error {reading : Reading} {field : Field} {error : UnpackError}
    (failed : reading.step field = .error error) : ∃ place cause, error = .field place cause := by
  unfold step at failed
  split at failed
  · split at failed
    · cases failed
    · cases failed
      exact ⟨_, _, rfl⟩
  · split at failed
    · cases failed
    · cases failed
      exact ⟨_, _, rfl⟩

/-- What fails in reading by a sound descriptor is a field, or the buffer is empty. -/
theorem unpack_error_kind {descriptor : String} {fields : List Field}
    (known : Descriptor.fields descriptor = .ok fields) {buffer : List UInt8} {error : UnpackError}
    (failed : unpack descriptor buffer = .error error) : error.report.kind ≠ .invalidFormat := by
  intro invalid
  obtain ⟨cause, rfl⟩ := UnpackError.descriptor_of_kind invalid
  by_cases nonempty : buffer = []
  · rw [nonempty] at failed
    cases failed
  · rw [unpack_eq known nonempty] at failed
    cases walked : fields.foldlM Reading.step ⟨⟨0, buffer⟩, 0, []⟩ with
    | ok last =>
      rw [walked] at failed
      cases failed
    | error error =>
      rw [walked] at failed
      cases failed
      obtain ⟨_, _, _, _, _, stopped⟩ := Layout.foldlM_error walked
      obtain ⟨_, _, other⟩ := Reading.step_error stopped
      cases other

theorem neverRefused_of_fields {descriptor : String} {fields : List Field}
    (known : Descriptor.fields descriptor = .ok fields) : NeverRefused descriptor := by
  have sizing : ∀ values error, packedSize descriptor values = .error error →
      error.report.kind ≠ .invalidFormat := by
    intro values error failed invalid
    obtain ⟨cause, rfl⟩ := PackError.descriptor_of_kind invalid
    cases known.symm.trans (fields_of_packedSize_error failed)
  refine ⟨sizing, ?_, ?_, fun _ _ failed => unpack_error_kind known failed, ?_⟩
  · intro values error failed
    rcases pack_eq_error_iff.mp failed with unsized | ⟨rfl, _⟩
    · exact sizing values error unsized
    · exact nofun
  · intro values buffer error held failed
    rcases packInto_cases descriptor values buffer with ⟨first, unsized, refused⟩ | ⟨_, refused⟩ |
      ⟨_, _, _, _, done, _⟩
    · cases refused.symm.trans failed
      exact sizing values error unsized
    · cases refused.symm.trans failed
      exact nofun
    · cases done.symm.trans failed
  · intro buffer slots error after failed
    obtain ⟨found, read, ending, streamed⟩ := exists_streamed descriptor buffer
    rcases unpackInto_of_streamed streamed slots with ⟨_, _, filled⟩ | ⟨_, _, _, stopped, refused⟩
    · cases filled.symm.trans failed
    · cases refused.symm.trans failed
      cases stopped with
      | noSlot | wrongSlot => exact nofun
      | @failed cause broken =>
        subst broken
        exact unpack_error_kind known (unpack_of_streamed streamed)

theorem alwaysFails_of_fields {descriptor : String} {cause : Descriptor.Error}
    (broken : Descriptor.fields descriptor = .error cause) : AlwaysFails descriptor := by
  have unsound : ¬∃ fields, Descriptor.fields descriptor = .ok fields := by
    rintro ⟨fields, known⟩
    cases known.symm.trans broken
  have reading : ∀ buffer, ∃ error, unpack descriptor buffer = .error error := by
    intro buffer
    cases unpacks : unpack descriptor buffer with
    | error error => exact ⟨error, rfl⟩
    | ok read => exact absurd (fields_of_unpack unpacks).2 unsound
  refine ⟨?_, ?_, ?_, reading, ?_⟩
  · intro values
    cases sized : packedSize descriptor values with
    | error error => exact ⟨error, rfl⟩
    | ok total => exact absurd (fields_of_packedSize sized) unsound
  · intro values
    cases packs : pack descriptor values with
    | error error => exact ⟨error, rfl⟩
    | ok bytes =>
      obtain ⟨fields, known, _⟩ := pack_eq_ok_iff.mp packs
      exact absurd ⟨fields, known⟩ unsound
  · intro values buffer
    rcases packInto_cases descriptor values buffer with ⟨error, _, refused⟩ | ⟨_, refused⟩ |
      ⟨fields, _, _, _, _, known, _⟩
    · exact ⟨error, [], refused⟩
    · exact ⟨.empty, [], refused⟩
    · exact absurd ⟨fields, known⟩ unsound
  · intro buffer slots
    obtain ⟨found, read, ending, streamed⟩ := exists_streamed descriptor buffer
    rcases unpackInto_of_streamed streamed slots with ⟨rfl, _⟩ | ⟨_, error, _, _, refused⟩
    · obtain ⟨error, failed⟩ := reading buffer
      cases failed.symm.trans (unpack_of_streamed streamed)
    · exact ⟨error, _, refused⟩

end OrderPack.Record
