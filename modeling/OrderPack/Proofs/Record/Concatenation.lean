import OrderPack.Proofs.Descriptor.Concatenation
import OrderPack.Proofs.Record.Repacking

/-! Records of two descriptors in a row. The record of the first, with that of the second
behind it, is the record of both together, and reads as the values of the one and then those
of the other. So the values of the first fields of a key alone make the first bytes of the
key. -/
namespace OrderPack

theorem Kept.append {first second : List Field} {values more reads others : List Value}
    (kept : Kept first values reads) (all : values.length = first.length)
    (following : Kept second more others) :
    Kept (first ++ second) (values ++ more) (reads ++ others) := by
  induction kept with
  | @ended given =>
    have none : given = [] := List.eq_nil_of_length_eq_zero all
    simpa [none] using following
  | value keeps _ ih => exact .value keeps (ih (by simpa using all))

/-- Records of two rows of fields, of which the first has a value for each field that holds
one. -/
theorem Packed.concat {first second : List Field} {values more : List Value}
    {front back : List UInt8} (leading : Packed first values front)
    (all : values.length = first.countP Field.holdsValue) (following : Packed second more back) :
    Packed (first ++ second) (values ++ more) (front ++ back) := by
  apply (leading.with_more more).append
  rw [← all, List.drop_left]
  exact following

namespace Record

/-- Packing goes field by field. Where the first descriptor has a value for each of its fields
that hold one and does not leave its end to the buffer, and the other begins with no dot, the
record of both descriptors in a row is made of their two records, if it is not too long. It
reads as what is read from the two. -/
theorem pack_concatenated {first second : String} {fields : List Field}
    {values more : List Value} {front back : List UInt8}
    (known : Descriptor.fields first = .ok fields) (closed : Descriptor.openEnded first = false)
    (continued : second ≠ "") (dotless : second.toList.head? ≠ some '.')
    (all : values.length = fields.countP Field.holdsValue)
    (packs : pack first values = .ok front) (packsMore : pack second more = .ok back)
    (short : front.length + back.length ≤ maxLength) :
    pack (first ++ second) (values ++ more) = .ok (front ++ back) ∧
      ∃ read later, unpack first front = .ok read ∧ unpack second back = .ok later ∧
        unpack (first ++ second) (front ++ back) = .ok (read ++ later) := by
  obtain ⟨_, same, packed, some, within⟩ := pack_eq_ok_iff.mp packs
  cases same.symm.trans known
  obtain ⟨others, knownMore, packedMore, someMore, withinMore⟩ := pack_eq_ok_iff.mp packsMore
  have knownAll := Descriptor.fields_append known closed knownMore continued dotless
  have packedAll := packed.concat all packedMore
  have nonempty : front ++ back ≠ [] := List.append_ne_nil_of_left_ne_nil some back
  have withinAll : (front ++ back).length ≤ maxLength := by simpa using short
  obtain ⟨read, unpacks, kept⟩ := unpack_of_packed known packed some within
  obtain ⟨later, unpacksMore, keptMore⟩ := unpack_of_packed knownMore packedMore someMore withinMore
  obtain ⟨found, unpacksAll, keptAll⟩ := unpack_of_packed knownAll packedAll nonempty withinAll
  have joined := kept.append (by rw [all, List.countP_eq_length_filter]) keptMore
  rw [List.filter_append] at keptAll
  rw [keptAll.unique joined] at unpacksAll
  exact ⟨pack_eq_ok_iff.mpr ⟨_, knownAll, packedAll, nonempty, withinAll⟩,
    read, later, unpacks, unpacksMore, unpacksAll⟩

/-- A repeated scalar and padding at the end of the first descriptor, and raw bytes that carry
their length in it; the other has digits in front and leaves its end to the buffer. -/
theorem pack_concatenated_key_and_rest :
    pack ("2hux" ++ "3su")
        ([.int64 1, .int64 (-1), .bytes [7]] ++ [.text "ab", .bytes [9, 0]]) =
      .ok ([129, 127, 129, 7, 0] ++ [97, 98, 0, 9, 0]) ∧
    ∃ read later, unpack "2hux" [129, 127, 129, 7, 0] = .ok read ∧
      unpack "3su" [97, 98, 0, 9, 0] = .ok later ∧
      unpack ("2hux" ++ "3su") ([129, 127, 129, 7, 0] ++ [97, 98, 0, 9, 0]) =
        .ok (read ++ later) := by
  have known : Descriptor.fields "2hux" = .ok [.ofScalar (.int .w16), .ofScalar (.int .w16),
      ⟨.sizedRaw, 1, false⟩, ⟨.padding, 1, false⟩] := by with_unfolding_all rfl
  have closed : Descriptor.openEnded "2hux" = false := by with_unfolding_all rfl
  have packs : pack "2hux" [.int64 1, .int64 (-1), .bytes [7]] = .ok [129, 127, 129, 7, 0] := by
    with_unfolding_all rfl
  have packsMore : pack "3su" [.text "ab", .bytes [9, 0]] = .ok [97, 98, 0, 9, 0] := by
    with_unfolding_all rfl
  exact pack_concatenated known closed (by decide) (by decide) rfl packs packsMore (by decide)

end Record

end OrderPack
