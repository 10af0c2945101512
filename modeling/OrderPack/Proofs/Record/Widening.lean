import OrderPack.Proofs.Descriptor.Widening
import OrderPack.Proofs.Record.Extension
import OrderPack.Proofs.Record.Packing

/-! Widening a column of integers. The width says which numbers may be packed and nothing else:
their bytes do not tell how wide they were declared, and they are read back at any width. So a
record keeps its bytes under a descriptor with wider integers, and every buffer reads as before,
also one that cannot be read. -/
namespace OrderPack

theorem Value.Signed.mono {few many : Nat} {n : Int64} (signed : Signed few n)
    (wider : few ≤ many) : Signed many n := by
  have more : Nat.pow 2 (few - 1) ≤ Nat.pow 2 (many - 1) :=
    Nat.pow_le_pow_right (by decide) (Nat.sub_le_sub_right wider 1)
  obtain ⟨lower, upper⟩ := signed
  constructor <;> omega

theorem Value.Unsigned.mono {few many : Nat} {n : UInt64} (unsigned : Unsigned few n)
    (wider : few ≤ many) : Unsigned many n :=
  Nat.lt_of_lt_of_le unsigned (Nat.pow_le_pow_right (by decide) wider)

namespace Field.Widens

theorem holdsValue {narrow wide : Field} (widens : narrow.Widens wide) :
    wide.holdsValue = narrow.holdsValue := by
  cases widens <;> rfl

/-- A value is spelt by the same bytes in a wider field. -/
theorem spells {narrow wide : Field} (widens : narrow.Widens wide) {value : Value}
    {bytes : List UInt8} (spelt : narrow.Spells value bytes) : wide.Spells value bytes := by
  cases widens with
  | same => exact spelt
  | wider wider =>
    cases wider with
    | int wider =>
      obtain ⟨n, rfl, signed, rfl⟩ := spelt
      exact ⟨n, rfl, signed.mono wider, rfl⟩
    | uint wider =>
      obtain ⟨n, rfl, unsigned, rfl⟩ := spelt
      exact ⟨n, rfl, unsigned.mono wider, rfl⟩

/-- A wider field is passed as the narrow one is. -/
theorem step_eq {narrow wide : Field} (widens : narrow.Widens wide) (reading : Record.Reading) :
    reading.step wide = reading.step narrow := by
  cases widens with
  | same => rfl
  | wider wider => cases wider <;> rfl

end Field.Widens

/-- The record of wider fields is the same record. -/
theorem Packed.widened {fields others : List Field} {values : List Value} {bytes : List UInt8}
    (packed : Packed fields values bytes) (widens : List.Forall₂ Field.Widens fields others) :
    Packed others values bytes := by
  induction packed generalizing others with
  | ended =>
    cases widens
    exact .ended
  | padding skips later ih =>
    cases widens with
    | cons first rest =>
      cases first with
      | same => exact .padding skips (ih rest)
      | wider => cases skips
  | value holds spelt later ih =>
    cases widens with
    | cons first rest =>
      exact .value (first.holdsValue.trans holds) (first.spells spelt) (ih rest)

namespace Record

/-- A walk over wider fields takes the same steps. -/
theorem Reading.foldlM_widened {fields others : List Field}
    (widens : List.Forall₂ Field.Widens fields others) (reading : Reading) :
    others.foldlM Reading.step reading = fields.foldlM Reading.step reading := by
  induction widens generalizing reading with
  | nil => rfl
  | cons first rest ih =>
    rw [List.foldlM_cons, List.foldlM_cons, first.step_eq]
    cases reading.step _ with
    | error error => rfl
    | ok next => exact ih next

/-- Stored data stays valid when integers are declared wider. Whatever values a descriptor packs
the widened one packs into the same bytes, and every buffer is read as before: as the same values
or with the same error. -/
theorem widened_keeps_records {narrow wide : String}
    (widened : Descriptor.Widened narrow wide) :
    (∀ values bytes, pack narrow values = .ok bytes → pack wide values = .ok bytes) ∧
      ∀ buffer, unpack wide buffer = unpack narrow buffer := by
  rcases widened.ofText with
    ⟨cause, refused, refusedOther⟩ | ⟨layout, other, opened, openedOther, widens⟩
  · refine ⟨?_, ?_⟩
    · intro values bytes packs
      obtain ⟨fields, known, _⟩ := pack_eq_ok_iff.mp packs
      obtain ⟨layout, opened, _⟩ := Descriptor.fields_eq_ok_iff.mp known
      cases refused.symm.trans opened
    · intro buffer
      by_cases empty : buffer = []
      · rw [empty]
        rfl
      · rw [unpack_of_ofText_error refused empty, unpack_of_ofText_error refusedOther empty]
  · refine ⟨?_, ?_⟩
    · intro values bytes packs
      obtain ⟨fields, known, packed, nonempty, within⟩ := pack_eq_ok_iff.mp packs
      obtain ⟨found, again, sound, rfl⟩ := Descriptor.fields_eq_ok_iff.mp known
      cases opened.symm.trans again
      have knownOther := Descriptor.fields_eq_ok_iff.mpr
        ⟨other, openedOther, widens.fault.trans sound, rfl⟩
      exact pack_eq_ok_iff.mpr
        ⟨other.leading, knownOther, packed.widened widens.leading, nonempty, within⟩
    · intro buffer
      by_cases empty : buffer = []
      · rw [empty]
        rfl
      · rw [unpack_eq_leading opened empty, unpack_eq_leading openedOther empty,
          Reading.foldlM_widened widens.leading, widens.fault]

/-- Columns of sixteen bits become one of sixty-four and one of record numbers. -/
theorem widened_keeps_records_short_to_long :
    Descriptor.Widened "Sh2H" "Sq2r" ∧
      pack "Sh2H" [.text "k", .int64 (-5), .uint64 7, .uint64 300] =
        .ok [107, 0, 123, 135, 192, 236] ∧
      pack "Sq2r" [.text "k", .int64 (-5), .uint64 7, .uint64 300] =
        .ok [107, 0, 123, 135, 192, 236] ∧
      unpack "Sq2r" [107, 0, 123, 135] = unpack "Sh2H" [107, 0, 123, 135] := by
  have widened : Descriptor.Widened "Sh2H" "Sq2r" :=
    .cons (.inl rfl) (.cons (.inr (by decide)) (.cons (.inl rfl) (.cons (.inr (by decide)) .nil)))
  have packs : pack "Sh2H" [.text "k", .int64 (-5), .uint64 7, .uint64 300] =
      .ok [107, 0, 123, 135, 192, 236] := by with_unfolding_all rfl
  obtain ⟨keeps, reads⟩ := widened_keeps_records widened
  exact ⟨widened, packs, keeps _ _ packs, reads _⟩

end Record

end OrderPack
