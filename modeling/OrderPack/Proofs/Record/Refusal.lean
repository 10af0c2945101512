import OrderPack.Proofs.Record.Packing

/-! Why values are not packed. The fields are sized one after another, so the first field
at which the record cannot go on settles the failure: it has no value left, or its value
does not suit it, or the record grows too long with it. All fields before it are packed
within bounds by then. -/
namespace OrderPack

/-- Among the members that pass a test, a member stands behind those that stood before
it. -/
theorem getElem?_filter_countP {p : α → Bool} {all : List α} {member : α}
    (stands : all[place]? = some member) (passes : p member = true) :
    (all.filter p)[(all.take place).countP p]? = some member := by
  induction all generalizing place with
  | nil => cases stands
  | cons first rest ih =>
    cases place with
    | zero =>
      cases stands
      rw [List.filter_cons_of_pos passes]
      rfl
    | succ place =>
      rw [List.getElem?_cons_succ] at stands
      rw [List.take_succ_cons, List.filter_cons, List.countP_cons]
      split
      · exact ih stands
      · exact ih stands

namespace Record

/-- What is wrong with values for a row of fields. The place is that of the first field at
which the record cannot go on. -/
inductive Refused (fields : List Field) (values : List Value) : PackError → Prop where
  | missing {field : Field} (stands : fields[place]? = some field)
      (before : Packed (fields.take place) values front) (room : front.length ≤ maxLength)
      (holds : field.holdsValue = true)
      (spent : values.length ≤ (fields.take place).countP Field.holdsValue) :
      Refused fields values (.missing place values.length)
  | misfit {field : Field} (stands : fields[place]? = some field)
      (before : Packed (fields.take place) values front) (room : front.length ≤ maxLength)
      (holds : field.holdsValue = true)
      (next : values[(fields.take place).countP Field.holdsValue]? = some value)
      (unsuited : field.encode value = .error cause) :
      Refused fields values (.misfit place field.tag cause)
  | tooLong {field : Field} (stands : fields[place]? = some field)
      (before : Packed (fields.take place) values front) (room : front.length ≤ maxLength)
      (grown : Packed (fields.take (place + 1)) values more) (long : maxLength < more.length) :
      Refused fields values (.tooLong place)

namespace Sizing

/-- The sizing counts every field, and takes a value for each that holds one. -/
theorem foldlM_reached {given : Nat} {fields : List Field} {sizing last : Sizing}
    (passed : fields.foldlM (step given) sizing = .ok last) :
    last.field = sizing.field + fields.length ∧
      last.values = sizing.values.drop (fields.countP Field.holdsValue) := by
  induction fields generalizing sizing with
  | nil =>
    cases passed
    exact ⟨rfl, rfl⟩
  | cons field fields ih =>
    obtain ⟨next, stepped, onwards⟩ := Layout.foldlM_cons_eq_ok passed
    obtain ⟨_, one, kind⟩ := step_cases stepped
    obtain ⟨count, left⟩ := ih onwards
    constructor
    · rw [count, one, List.length_cons, Nat.add_assoc, Nat.add_comm 1]
    · rw [left]
      rcases kind with ⟨skips, same, _⟩ | ⟨holds, value, _, taken, _⟩
      · rw [List.countP_cons_of_neg (Bool.eq_false_iff.mp skips), same]
      · rw [List.countP_cons_of_pos holds, taken, List.drop_succ_cons]

theorem foldlM_refused {fields : List Field} {values : List Value} {error : PackError}
    (failed : fields.foldlM (step values.length) ⟨values, 0, 0⟩ = .error error) :
    Refused fields values error := by
  obtain ⟨place, field, reached, stands, passed, stopped⟩ := Layout.foldlM_error failed
  obtain ⟨front, before, total, room⟩ := foldlM_packed passed (Nat.zero_le _)
  obtain ⟨count, left⟩ := foldlM_reached passed
  have within : place < fields.length := (List.getElem?_eq_some_iff.mp stands).1
  rw [Nat.zero_add, List.length_take_of_le (Nat.le_of_lt within)] at count
  rw [Nat.zero_add] at total
  rw [total] at room
  rcases step_refuses stopped with ⟨holds, none, rfl⟩ | ⟨holds, value, cause, next, unsuited, rfl⟩ |
    ⟨more, added, long, rfl⟩
  · rw [count]
    rw [left] at none
    exact .missing stands before room holds (List.drop_eq_nil_iff.mp none)
  · rw [count]
    rw [left, List.getElem?_drop, Nat.add_zero] at next
    exact .misfit stands before room holds next unsuited
  · rw [count]
    rw [left] at added
    have grown : Packed (fields.take (place + 1)) values (front ++ more) := by
      rw [List.take_add_one, stands]
      exact before.append added
    exact .tooLong stands before room grown (by rwa [List.length_append, ← total])

end Sizing

/-- The sizing goes as far as the fields before the first fault of the descriptor, and then
meets this fault, if there is one. -/
theorem packedSize_eq (descriptor : String) (values : List Value) :
    packedSize descriptor values =
      ((Descriptor.leading descriptor).foldlM (Sizing.step values.length) ⟨values, 0, 0⟩).bind
        fun last => match Descriptor.fields descriptor with
          | .ok _ => .ok last.total
          | .error cause => .error (.descriptor cause) := by
  unfold packedSize Descriptor.leading Descriptor.fields
  cases Layout.ofText descriptor with
  | error cause => rfl
  | ok layout =>
    simp only [Except.bind, Sizing.run, Layout.foldFields_eq, Layout.fields_eq]
    cases layout.leading.foldlM (Sizing.step values.length) ⟨values, 0, 0⟩ with
    | error error => rfl
    | ok last => cases layout.fault? <;> rfl

/-- Packing fails where the sizing does, and where nothing is left to write. -/
theorem pack_eq_error_iff {descriptor : String} {values : List Value} {error : PackError} :
    pack descriptor values = .error error ↔
      packedSize descriptor values = .error error ∨
        error = .empty ∧ packedSize descriptor values = .ok 0 := by
  unfold pack
  rcases packInto_cases descriptor values [] with ⟨first, unsized, refused⟩ | ⟨sized, refused⟩ |
    ⟨_, bytes, sized, nonempty, done, _⟩
  · rw [refused, unsized]
    simp
  · rw [refused, sized]
    simp [eq_comm]
  · rw [done, sized]
    simp [nonempty]

/-- Where the descriptor is sound, packing fails at the first field at which the record
cannot go on, or because nothing is left to write. -/
theorem refused_of_pack {descriptor : String} {fields : List Field} {values : List Value}
    {error : PackError} (known : Descriptor.fields descriptor = .ok fields)
    (failed : pack descriptor values = .error error) :
    Refused fields values error ∨ error = .empty ∧ packedSize descriptor values = .ok 0 := by
  rcases pack_eq_error_iff.mp failed with unsized | empty
  · rw [packedSize_eq, known, Descriptor.leading_eq known] at unsized
    cases passed : fields.foldlM (Sizing.step values.length) ⟨values, 0, 0⟩ with
    | error cause =>
      rw [passed] at unsized
      cases unsized
      exact .inl (Sizing.foldlM_refused passed)
    | ok last =>
      rw [passed] at unsized
      cases unsized
  · exact .inr empty

end Record

end OrderPack
