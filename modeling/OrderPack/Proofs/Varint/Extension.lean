import OrderPack.Proofs.Varint.Truncation

/-! An integer with more bytes behind it. A decoder asks for the bytes it needs and looks at
no others, so whatever it makes of them, value or fault, it makes of them before any rest.
Only where it ran out of bytes would more of them have made a difference. -/
namespace OrderPack

/-- The same place, with more bytes behind all that lie ahead. -/
def Reader.followedBy (reader : Reader) (suffix : List UInt8) : Reader :=
  ⟨reader.offset, reader.rest ++ suffix⟩

theorem Reader.take_followedBy {reader : Reader} (enough : count ≤ reader.rest.length)
    (suffix : List UInt8) :
    (reader.followedBy suffix).take count =
      (reader.take count).map fun (bytes, after) => (bytes, after.followedBy suffix) := by
  have longer : count ≤ (reader.followedBy suffix).rest.length := by
    rw [followedBy, List.length_append]
    exact Nat.le_add_right_of_le enough
  rw [take, take, if_pos enough, if_pos longer]
  simp only [followedBy, Except.map, List.take_append_of_le_length enough,
    List.drop_append_of_le_length enough]

namespace Varint

/-- The second answer is the first with more bytes behind it, unless the first came of a want
of bytes. -/
def Extends (suffix : List UInt8) (read again : Except Error (α × Reader)) : Prop :=
  ¬Starved read → again = read.map fun (found, after) => (found, after.followedBy suffix)

theorem Extends.ok (suffix : List UInt8) (found : α) (after : Reader) :
    Extends suffix (.ok (found, after)) (.ok (found, after.followedBy suffix)) := fun _ => rfl

theorem Extends.error (suffix : List UInt8) (cause : Error) :
    Extends (α := α) suffix (.error cause) (.error cause) := fun _ => rfl

/-- What is read one after the other is extended as its parts are. -/
theorem Extends.bind {suffix : List UInt8} {read again : Except Error (α × Reader)}
    {next following : α × Reader → Except Error (β × Reader)} (first : Extends suffix read again)
    (later : ∀ found after,
      Extends suffix (next (found, after)) (following (found, after.followedBy suffix))) :
    Extends suffix (read.bind next) (again.bind following) := by
  intro enough
  have fed : ¬Starved read := fun starved => enough (starved.bind next)
  rw [first fed]
  cases read with
  | error cause => rfl
  | ok pair => exact later pair.1 pair.2 enough

theorem lead_extends (reader : Reader) (suffix : List UInt8) :
    Extends suffix (lead reader) (lead (reader.followedBy suffix)) := by
  obtain ⟨offset, rest⟩ := reader
  cases rest with
  | nil => exact fun fed => absurd ⟨_, rfl⟩ fed
  | cons byte rest => exact .ok suffix byte ⟨offset + 1, rest⟩

theorem payload_extends (start : Nat) (reader : Reader) (count : Nat) (suffix : List UInt8) :
    Extends suffix (payload start reader count)
      (payload start (reader.followedBy suffix) count) := by
  intro fed
  by_cases enough : count ≤ reader.rest.length
  · rw [payload, payload, Reader.take_followedBy enough]
    cases reader.take count <;> rfl
  · exact absurd (payload_starved start reader.offset (Nat.lt_of_not_le enough)) fed

theorem decodeNat_extends (reader : Reader) (suffix : List UInt8) :
    Extends suffix (decodeNat reader) (decodeNat (reader.followedBy suffix)) := by
  refine (lead_extends reader suffix).bind fun byte after => ?_
  simp only
  split
  · exact .error suffix _
  split
  · exact .ok suffix _ after
  split
  · exact (lead_extends after suffix).bind fun low after => .ok suffix _ after
  split
  · split
    · exact .error suffix _
    · refine (payload_extends reader.offset after _ suffix).bind fun distance after => ?_
      simp only
      split
      · exact .ok suffix _ after
      · exact .error suffix _
  · exact .error suffix _

theorem decodeUnsigned_extends (reader : Reader) (suffix : List UInt8) :
    Extends suffix (decodeUnsigned reader) (decodeUnsigned (reader.followedBy suffix)) :=
  (decodeNat_extends reader suffix).bind fun n after => .ok suffix (UInt64.ofNat n) after

theorem decodeSigned_extends (reader : Reader) (suffix : List UInt8) :
    Extends suffix (decodeSigned reader) (decodeSigned (reader.followedBy suffix)) := by
  refine (lead_extends reader suffix).bind fun byte after => ?_
  simp only
  split
  · split
    · exact .error suffix _
    · exact (payload_extends reader.offset after _ suffix).bind fun n after => .ok suffix _ after
  split
  · exact (lead_extends after suffix).bind fun low after => .ok suffix _ after
  split
  · exact .ok suffix _ after
  · refine (decodeNat_extends reader suffix).bind fun n after => ?_
    simp only
    split
    · exact .ok suffix _ after
    · exact .error suffix _

end Varint

end OrderPack
