import OrderPack.Proofs.Record.Refusal

/-! Which values are packed, and what is reported of those that are not. A field admits the
values of its kind, and of numbers those between the least and the greatest it is declared
for. Values fit a row of fields if there are enough of them, each is admitted by its field,
and the record they make is not too long. The first field at which values stop to fit is
named in the failure, whatever is wrong with later ones; a fault of the descriptor counts
only once everything before it fits. -/
namespace OrderPack

/-- The number that a value is, if it is one. -/
def Value.number? : Value → Option Int
  | .int64 n => some n.toInt
  | .uint64 n => some n.toNat
  | .text _ | .bytes _ => none

namespace Field

/-- The least and the greatest number that a field is declared for, if it holds numbers. -/
def range? (field : Field) : Option (Int × Int) :=
  match field.tag with
  | .padding | .fixedText | .text | .raw | .sizedRaw => none
  | .bits => some (0, Nat.pow 2 field.size - 1)
  | .scalar .int8 => some (-128, 127)
  | .scalar .uint8 => some (0, 255)
  | .scalar (.int .w16) => some (-32768, 32767)
  | .scalar (.int .w32) => some (-2147483648, 2147483647)
  | .scalar (.int .w64) | .scalar (.int .recno) =>
    some (-9223372036854775808, 9223372036854775807)
  | .scalar (.uint .w16) => some (0, 65535)
  | .scalar (.uint .w32) => some (0, 4294967295)
  | .scalar (.uint .w64) | .scalar (.uint .recno) | .scalar .recordId =>
    some (0, 18446744073709551615)

/-- A field admits a value of its kind, and a number only within its range. -/
structure Admits (field : Field) (value : Value) : Prop where
  kind : field.tag.kind? = some value.kind
  range : ∀ number least greatest, value.number? = some number →
    field.range? = some (least, greatest) → least ≤ number ∧ number ≤ greatest

/-- Without a range the kind is all that is asked. -/
theorem admits_iff_of_range_none {field : Field} {value : Value} (free : field.range? = none) :
    field.Admits value ↔ field.tag.kind? = some value.kind := by
  refine ⟨Admits.kind, fun kind => ⟨kind, ?_⟩⟩
  intro number least greatest _ range
  cases free.symm.trans range

theorem admits_iff_unsigned (bits : Nat) {field : Field} {value : Value}
    (kind : field.tag.kind? = some .uint64)
    (declared : field.range? = some (0, (Nat.pow 2 bits : Int) - 1)) :
    field.Admits value ↔ ∃ n, value = .uint64 n ∧ Value.Unsigned bits n := by
  constructor
  · intro admits
    have same := admits.kind.symm.trans kind
    cases value with
    | uint64 n =>
      have inside := admits.range n.toNat 0 _ rfl declared
      refine ⟨n, rfl, ?_⟩
      rw [Value.Unsigned]
      omega
    | int64 | text | bytes => cases same
  · rintro ⟨n, rfl, inside⟩
    refine ⟨kind, ?_⟩
    rintro _ _ _ ⟨⟩ range
    cases declared.symm.trans range
    rw [Value.Unsigned] at inside
    omega

theorem admits_iff_signed (bits : Nat) {field : Field} {value : Value}
    (kind : field.tag.kind? = some .int64)
    (declared : field.range? =
      some (-(Nat.pow 2 (bits - 1) : Int), (Nat.pow 2 (bits - 1) : Int) - 1)) :
    field.Admits value ↔ ∃ n, value = .int64 n ∧ Value.Signed bits n := by
  constructor
  · intro admits
    have same := admits.kind.symm.trans kind
    cases value with
    | int64 n =>
      have inside := admits.range n.toInt _ _ rfl declared
      refine ⟨n, rfl, ?_⟩
      rw [Value.Signed]
      omega
    | uint64 | text | bytes => cases same
  · rintro ⟨n, rfl, inside⟩
    refine ⟨kind, ?_⟩
    rintro _ _ _ ⟨⟩ range
    cases declared.symm.trans range
    rw [Value.Signed] at inside
    omega

/-- The bytes of a number are made whatever it is, so its range alone decides. -/
private theorem exists_bytes_iff {value : Value} {number : α → Value} {inside : α → Prop}
    {make : α → List UInt8} :
    (∃ bytes n, value = number n ∧ inside n ∧ bytes = make n) ↔ ∃ n, value = number n ∧ inside n :=
  ⟨fun ⟨_, n, same, within, _⟩ => ⟨n, same, within⟩,
    fun ⟨n, same, within⟩ => ⟨_, n, same, within, rfl⟩⟩

/-- A field has bytes just for the values that it admits. -/
theorem spells_iff_admits {field : Field} {value : Value} (holds : field.holdsValue = true) :
    (∃ bytes, field.Spells value bytes) ↔ field.Admits value := by
  obtain ⟨tag, size, sized⟩ := field
  cases tag with
  | padding => cases holds
  | fixedText | text | raw | sizedRaw =>
    rw [admits_iff_of_range_none rfl]
    cases value <;> simp [Spells, Tag.kind?, Value.kind]
  | bits =>
    rw [admits_iff_unsigned size rfl rfl]
    exact exists_bytes_iff
  | scalar scalar =>
    cases scalar with
    | int8 =>
      rw [admits_iff_signed 8 rfl rfl]
      exact exists_bytes_iff
    | uint8 =>
      rw [admits_iff_unsigned 8 rfl rfl]
      exact exists_bytes_iff
    | int width =>
      rw [admits_iff_signed width.bits rfl (by cases width <;> rfl)]
      exact exists_bytes_iff
    | uint width =>
      rw [admits_iff_unsigned width.bits rfl (by cases width <;> rfl)]
      exact exists_bytes_iff
    | recordId =>
      rw [admits_iff_unsigned 64 rfl rfl]
      exact ⟨fun ⟨_, n, same, _⟩ => ⟨n, same, unsigned_word n⟩,
        fun ⟨n, same, _⟩ => ⟨_, n, same, rfl⟩⟩

/-- A value that cannot be written is not admitted. -/
theorem not_admits_of_encode {field : Field} {value : Value} {cause : Misfit}
    (holds : field.holdsValue = true) (failed : field.encode value = .error cause) :
    ¬field.Admits value := by
  intro admits
  obtain ⟨bytes, spelt⟩ := (spells_iff_admits holds).mpr admits
  cases failed.symm.trans (encode_eq_ok_iff.mpr spelt)

theorem encode_of_not_admits {field : Field} {value : Value} (holds : field.holdsValue = true)
    (refused : ¬field.Admits value) : ∃ cause, field.encode value = .error cause := by
  cases written : field.encode value with
  | error cause => exact ⟨cause, rfl⟩
  | ok bytes =>
    exact absurd ((spells_iff_admits holds).mp ⟨bytes, encode_eq_ok_iff.mp written⟩) refused

end Field

namespace Record

/-- How many bytes values take in a row of fields. Padding takes its size, and a value takes
what its field says. -/
def recordSize : List Field → List Value → Nat
  | [], _ => 0
  | field :: fields, values =>
    if field.holdsValue then
      match values with
      | [] => 0
      | value :: values =>
        (field.encodedSize value).toOption.getD 0 + recordSize fields values
    else field.size + recordSize fields values

/-- There is one value for each field that holds one, and the field admits it. -/
structure Suit (fields : List Field) (values : List Value) : Prop where
  enough : fields.countP Field.holdsValue ≤ values.length
  admitted : ∀ (index : Nat) (field : Field) (value : Value),
    (fields.filter Field.holdsValue)[index]? = some field → values[index]? = some value →
      field.Admits value

/-- Values fit fields if they suit them and the record is not too long. -/
structure Fit (fields : List Field) (values : List Value) : Prop extends Suit fields values where
  short : recordSize fields values ≤ maxLength

theorem length_of_packed {fields : List Field} {values : List Value} {bytes : List UInt8}
    (packed : Packed fields values bytes) : bytes.length = recordSize fields values := by
  induction packed with
  | ended => rfl
  | padding skips _ ih =>
    rw [recordSize.eq_def]
    simp only [skips, Bool.false_eq_true, if_false]
    rw [List.length_append, Field.length_zeros, ih]
  | value holds spelt _ ih =>
    rw [recordSize, if_pos holds, Field.encodedSize_eq, Field.encode_eq_ok_iff.mpr spelt,
      List.length_append, ih]
    rfl

theorem suit_of_packed {fields : List Field} {values : List Value} {bytes : List UInt8}
    (packed : Packed fields values bytes) : Suit fields values := by
  induction packed with
  | ended => exact ⟨Nat.zero_le _, fun _ _ _ stands => nomatch stands⟩
  | padding skips _ ih =>
    refine ⟨?_, ?_⟩
    · rw [List.countP_cons_of_neg (Bool.eq_false_iff.mp skips)]
      exact ih.enough
    · rw [List.filter_cons_of_neg (Bool.eq_false_iff.mp skips)]
      exact ih.admitted
  | @value _ _ _ _ _ front holds spelt _ ih =>
    refine ⟨?_, ?_⟩
    · rw [List.countP_cons_of_pos holds, List.length_cons]
      exact Nat.succ_le_succ ih.enough
    · rw [List.filter_cons_of_pos holds]
      intro index field value stands given
      cases index with
      | zero =>
        cases stands
        cases given
        exact (Field.spells_iff_admits holds).mp ⟨front, spelt⟩
      | succ index => exact ih.admitted index field value stands given

theorem packed_of_suit {fields : List Field} {values : List Value} (suit : Suit fields values) :
    ∃ bytes, Packed fields values bytes := by
  induction fields generalizing values with
  | nil => exact ⟨[], .ended⟩
  | cons field fields ih =>
    obtain ⟨enough, admitted⟩ := suit
    cases holds : field.holdsValue with
    | false =>
      rw [List.countP_cons_of_neg (Bool.eq_false_iff.mp holds)] at enough
      rw [List.filter_cons_of_neg (Bool.eq_false_iff.mp holds)] at admitted
      obtain ⟨bytes, packed⟩ := ih ⟨enough, admitted⟩
      exact ⟨_, .padding holds packed⟩
    | true =>
      rw [List.countP_cons_of_pos holds] at enough
      rw [List.filter_cons_of_pos holds] at admitted
      cases values with
      | nil => cases enough
      | cons value values =>
        obtain ⟨front, spelt⟩ :=
          (Field.spells_iff_admits holds).mpr (admitted 0 field value rfl rfl)
        obtain ⟨bytes, packed⟩ := ih ⟨Nat.le_of_succ_le_succ enough,
          fun index => admitted (index + 1)⟩
        exact ⟨_, .value holds spelt packed⟩

/-- Values fit just if they make a record within bounds. -/
theorem fit_iff_packed {fields : List Field} {values : List Value} :
    Fit fields values ↔ ∃ bytes, Packed fields values bytes ∧ bytes.length ≤ maxLength := by
  constructor
  · rintro ⟨suit, short⟩
    obtain ⟨bytes, packed⟩ := packed_of_suit suit
    exact ⟨bytes, packed, by rwa [length_of_packed packed]⟩
  · rintro ⟨bytes, packed, short⟩
    exact ⟨suit_of_packed packed, by rwa [← length_of_packed packed]⟩

/-- The sizing passes the fields that the values fit, and knows how far it has come. -/
theorem Sizing.foldlM_of_fit {fields : List Field} {values : List Value}
    (fit : Fit fields values) (given : Nat) :
    fields.foldlM (step given) ⟨values, 0, 0⟩ =
      .ok ⟨values.drop (fields.countP Field.holdsValue), fields.length,
        recordSize fields values⟩ := by
  obtain ⟨bytes, packed, short⟩ := fit_iff_packed.mp fit
  obtain ⟨⟨left, place, total⟩, passed, sum⟩ :=
    foldlM_of_packed packed given 0 0 (by rwa [Nat.zero_add])
  obtain ⟨count, rest⟩ := foldlM_reached passed
  simp only [Nat.zero_add] at sum count rest
  rw [passed, sum, count, rest, length_of_packed packed]

theorem fit_of_foldlM {given : Nat} {fields : List Field} {values : List Value} {last : Sizing}
    (passed : fields.foldlM (Sizing.step given) ⟨values, 0, 0⟩ = .ok last) : Fit fields values := by
  obtain ⟨bytes, packed, total, short⟩ := Sizing.foldlM_packed passed (Nat.zero_le _)
  rw [Nat.zero_add] at total
  exact fit_iff_packed.mpr ⟨bytes, packed, total ▸ short⟩

/-- The first thing in the way of packing values, as the class of the failure and the place
of the field that it is found at, padding counted. The values fit all fields before it. At
one field the want of a value comes first, then a value that the field does not admit, and
then the length of the record. -/
inductive Violation (descriptor : String) (values : List Value) :
    FailureKind → Option Nat → Prop where
  | malformed (fit : Fit (Descriptor.leading descriptor) values)
      (broken : Descriptor.fields descriptor = .error cause) :
      Violation descriptor values .invalidFormat none
  | missing {field : Field} (stands : (Descriptor.leading descriptor)[place]? = some field)
      (before : Fit ((Descriptor.leading descriptor).take place) values)
      (holds : field.holdsValue = true)
      (spent : values.length ≤
        ((Descriptor.leading descriptor).take place).countP Field.holdsValue) :
      Violation descriptor values .argumentCountMismatch (some place)
  | unsuited {field : Field} (stands : (Descriptor.leading descriptor)[place]? = some field)
      (before : Fit ((Descriptor.leading descriptor).take place) values)
      (holds : field.holdsValue = true)
      (next : values[((Descriptor.leading descriptor).take place).countP Field.holdsValue]? =
        some value)
      (refused : ¬field.Admits value) :
      Violation descriptor values .typeMismatch (some place)
  | tooLong (stands : place < (Descriptor.leading descriptor).length)
      (before : Fit ((Descriptor.leading descriptor).take place) values)
      (suit : Suit ((Descriptor.leading descriptor).take (place + 1)) values)
      (long : maxLength <
        recordSize ((Descriptor.leading descriptor).take (place + 1)) values) :
      Violation descriptor values .invalidArgument (some place)
  | empty (known : Descriptor.fields descriptor = .ok fields) (fit : Fit fields values)
      (nothing : recordSize fields values = 0) :
      Violation descriptor values .invalidArgument none

/-- A field at which the sizing cannot go on is the first violation. -/
theorem violation_of_refused {descriptor : String} {values : List Value} {error : PackError}
    (refused : Refused (Descriptor.leading descriptor) values error) :
    Violation descriptor values error.report.kind error.report.field := by
  cases refused with
  | missing stands before room holds spent =>
    exact .missing stands (fit_iff_packed.mpr ⟨_, before, room⟩) holds spent
  | misfit stands before room holds next unsuited =>
    exact .unsuited stands (fit_iff_packed.mpr ⟨_, before, room⟩) holds next
      (Field.not_admits_of_encode holds unsuited)
  | tooLong stands before room grown long =>
    rw [length_of_packed grown] at long
    exact .tooLong (List.getElem?_eq_some_iff.mp stands).1 (fit_iff_packed.mpr ⟨_, before, room⟩)
      (suit_of_packed grown) long

/-- Packing fails at a field, or at the fault behind fields that the values all fit, or
because the values fit and make no bytes. -/
theorem pack_error_cases {descriptor : String} {values : List Value} {error : PackError}
    (failed : pack descriptor values = .error error) :
    Refused (Descriptor.leading descriptor) values error ∨
    (∃ cause, Fit (Descriptor.leading descriptor) values ∧
      Descriptor.fields descriptor = .error cause ∧ error = .descriptor cause) ∨
    ∃ fields, Descriptor.fields descriptor = .ok fields ∧ Fit fields values ∧
      recordSize fields values = 0 ∧ error = .empty := by
  -- Whatever fails fails in the sizing, but for a record that comes out empty.
  have sizing := packedSize_eq descriptor values
  cases passed : (Descriptor.leading descriptor).foldlM (Sizing.step values.length)
      ⟨values, 0, 0⟩ with
  | error first =>
    rw [passed] at sizing
    rcases pack_eq_error_iff.mp failed with unsized | ⟨_, sized⟩
    · cases unsized.symm.trans sizing
      exact .inl (Sizing.foldlM_refused passed)
    · cases sized.symm.trans sizing
  | ok last =>
    have fit := fit_of_foldlM passed
    rw [Sizing.foldlM_of_fit fit] at sizing
    cases known : Descriptor.fields descriptor with
    | error cause =>
      rw [known] at sizing
      rcases pack_eq_error_iff.mp failed with unsized | ⟨_, sized⟩
      · cases unsized.symm.trans sizing
        exact .inr (.inl ⟨cause, fit, rfl, rfl⟩)
      · cases sized.symm.trans sizing
    | ok fields =>
      rw [known] at sizing
      rcases pack_eq_error_iff.mp failed with unsized | ⟨rfl, sized⟩
      · cases unsized.symm.trans sizing
      · rw [Descriptor.leading_eq known] at fit sizing
        have nothing : recordSize fields values = 0 :=
          (Except.ok.inj (sized.symm.trans sizing)).symm
        exact .inr (.inr ⟨fields, rfl, fit, nothing, rfl⟩)

theorem violation_of_pack {descriptor : String} {values : List Value} {error : PackError}
    (failed : pack descriptor values = .error error) :
    Violation descriptor values error.report.kind error.report.field := by
  rcases pack_error_cases failed with refused | ⟨cause, fit, broken, rfl⟩ |
    ⟨fields, known, fit, nothing, rfl⟩
  · exact violation_of_refused refused
  · exact .malformed fit broken
  · exact .empty known fit nothing

/-- The descriptor is found at fault just if the values fit everything before its fault. -/
theorem pack_eq_descriptor_error_iff {descriptor : String} {values : List Value}
    {cause : Descriptor.Error} :
    pack descriptor values = .error (.descriptor cause) ↔
      Fit (Descriptor.leading descriptor) values ∧
        Descriptor.fields descriptor = .error cause := by
  constructor
  · intro failed
    rcases pack_error_cases failed with refused | ⟨_, fit, broken, same⟩ | ⟨_, _, _, _, same⟩
    · cases refused
    · cases same
      exact ⟨fit, broken⟩
    · cases same
  · rintro ⟨fit, broken⟩
    refine pack_eq_error_iff.mpr (.inl ?_)
    rw [packedSize_eq, Sizing.foldlM_of_fit fit, broken]
    rfl

/-- The sizing stops at a field that it cannot pass, if the values fit all fields before. -/
theorem pack_of_stop {descriptor : String} {values : List Value} {field : Field}
    {error : PackError} (stands : (Descriptor.leading descriptor)[place]? = some field)
    (before : Fit ((Descriptor.leading descriptor).take place) values)
    (stopped : Sizing.step values.length
      ⟨values.drop (((Descriptor.leading descriptor).take place).countP Field.holdsValue), place,
        recordSize ((Descriptor.leading descriptor).take place) values⟩ field = .error error) :
    pack descriptor values = .error error := by
  have passed := Sizing.foldlM_of_fit before values.length
  have within : place < (Descriptor.leading descriptor).length :=
    (List.getElem?_eq_some_iff.mp stands).1
  rw [List.length_take_of_le (Nat.le_of_lt within)] at passed
  refine pack_eq_error_iff.mpr (.inl ?_)
  rw [packedSize_eq, Layout.foldlM_of_stop stands passed stopped]
  rfl

/-- What a field adds can make the record too long. -/
theorem Sizing.step_of_long {field : Field} {values : List Value} {more : List UInt8}
    (added : Packed [field] values more) (given place total : Nat)
    (long : maxLength < total + more.length) :
    step given ⟨values, place, total⟩ field = .error (.tooLong place) := by
  cases added with
  | padding skips later =>
    rw [later.nothing_behind rfl, List.append_nil, Field.length_zeros] at long
    rw [step, skips, if_neg Bool.false_ne_true, grow, if_neg (Nat.not_le_of_lt long)]
  | value holds spelt later =>
    rw [later.nothing_behind rfl, List.append_nil] at long
    rw [step, if_pos holds]
    simp only [Field.encodedSize_eq, Field.encode_eq_ok_iff.mpr spelt, Except.map]
    rw [grow, if_neg (Nat.not_le_of_lt long)]

theorem pack_of_violation {descriptor : String} {values : List Value} {kind : FailureKind}
    {place : Option Nat} (violation : Violation descriptor values kind place) :
    ∃ error, pack descriptor values = .error error ∧ error.report.kind = kind ∧
      error.report.field = place := by
  cases violation with
  | @malformed cause fit broken =>
    exact ⟨.descriptor cause, pack_eq_descriptor_error_iff.mpr ⟨fit, broken⟩, rfl, rfl⟩
  | @missing place field stands before holds spent =>
    refine ⟨.missing place values.length, pack_of_stop stands before ?_, rfl, rfl⟩
    rw [List.drop_eq_nil_of_le spent, Sizing.step, if_pos holds]
  | @unsuited place value field stands before holds next refused =>
    obtain ⟨cause, unsuited⟩ := Field.encode_of_not_admits holds refused
    refine ⟨.misfit place field.tag cause, pack_of_stop stands before ?_, rfl, rfl⟩
    obtain ⟨within, rfl⟩ := List.getElem?_eq_some_iff.mp next
    rw [List.drop_eq_getElem_cons within, Sizing.step, if_pos holds]
    simp only [Field.encodedSize_eq, unsuited, Except.map]
  | @tooLong place stands before suit long =>
    obtain ⟨bytes, packed⟩ := packed_of_suit suit
    have last := List.getElem?_eq_getElem stands
    -- The record up to the field falls into the one before it and what the field adds.
    rw [List.take_add_one, last, Option.toList_some] at packed long
    obtain ⟨front, back, rfl, leading, following⟩ := packed.of_append
    refine ⟨.tooLong place, pack_of_stop last before ?_, rfl, rfl⟩
    refine Sizing.step_of_long following _ _ _ ?_
    rwa [← length_of_packed leading, ← List.length_append, length_of_packed packed]
  | empty known fit nothing =>
    refine ⟨.empty, pack_eq_error_iff.mpr (.inr ⟨rfl, ?_⟩), rfl, rfl⟩
    rw [packedSize_eq, Descriptor.leading_eq known, Sizing.foldlM_of_fit fit, known]
    exact congrArg Except.ok nothing

namespace Sizing

/-- The same sizing with more values behind those that are left. -/
def withMore (extra : List Value) (sizing : Sizing) : Sizing :=
  { sizing with values := sizing.values ++ extra }

theorem grow_withMore (extra : List Value) (sizing : Sizing) (values : List Value) (size : Nat) :
    (sizing.withMore extra).grow (values ++ extra) size =
      (sizing.grow values size).map (withMore extra) := by
  unfold grow
  rw [apply_ite (Except.map (withMore extra))]
  rfl

/-- Values behind those that the fields take go along unseen. -/
theorem step_withMore (extra : List Value) (given more : Nat) {sizing : Sizing} {field : Field}
    (enough : field.holdsValue = true → sizing.values ≠ []) :
    (sizing.withMore extra).step more field =
      (sizing.step given field).map (withMore extra) := by
  unfold step
  split
  · rename_i holds
    obtain ⟨value, values, found⟩ := List.exists_cons_of_ne_nil (enough holds)
    have ahead : (sizing.withMore extra).values = value :: (values ++ extra) := by
      rw [withMore, found, List.cons_append]
    rw [ahead, found]
    simp only
    cases field.encodedSize value with
    | error cause => rfl
    | ok size => exact grow_withMore extra sizing values size
  · exact grow_withMore extra sizing sizing.values field.size

theorem foldlM_withMore (extra : List Value) (given more : Nat) {fields : List Field}
    (sizing : Sizing) (enough : fields.countP Field.holdsValue ≤ sizing.values.length) :
    fields.foldlM (step more) (sizing.withMore extra) =
      (fields.foldlM (step given) sizing).map (withMore extra) := by
  induction fields generalizing sizing with
  | nil => rfl
  | cons field fields ih =>
    have supplied : field.holdsValue = true → sizing.values ≠ [] := by
      intro holds none
      rw [List.countP_cons_of_pos holds, none] at enough
      cases enough
    rw [List.foldlM_cons, List.foldlM_cons, step_withMore extra given more supplied]
    cases stepped : sizing.step given field with
    | error error => rfl
    | ok next =>
      refine ih next ?_
      obtain ⟨_, _, ⟨skips, same, _⟩ | ⟨holds, value, _, taken, _⟩⟩ := step_cases stepped
      · rwa [same, ← List.countP_cons_of_neg (Bool.eq_false_iff.mp skips)]
      · rw [List.countP_cons_of_pos holds, taken, List.length_cons] at enough
        exact Nat.le_of_succ_le_succ enough

end Sizing

/-- The size of a record does not depend on values that no field is left for. -/
theorem packedSize_append {descriptor : String} {values : List Value} (extra : List Value)
    (enough : (Descriptor.leading descriptor).countP Field.holdsValue ≤ values.length) :
    packedSize descriptor (values ++ extra) = packedSize descriptor values := by
  have along := Sizing.foldlM_withMore extra values.length (values ++ extra).length
    ⟨values, 0, 0⟩ enough
  rw [Sizing.withMore] at along
  rw [packedSize_eq, packedSize_eq, along]
  cases (Descriptor.leading descriptor).foldlM (Sizing.step values.length) ⟨values, 0, 0⟩ <;> rfl

theorem pack_append {descriptor : String} {values : List Value} (extra : List Value)
    (enough : (Descriptor.leading descriptor).countP Field.holdsValue ≤ values.length) :
    pack descriptor (values ++ extra) = pack descriptor values := by
  cases packs : pack descriptor values with
  | error error =>
    rw [pack_eq_error_iff, packedSize_append extra enough]
    exact pack_eq_error_iff.mp packs
  | ok bytes =>
    obtain ⟨fields, known, packed, nonempty, within⟩ := pack_eq_ok_iff.mp packs
    exact pack_eq_ok_iff.mpr ⟨fields, known, packed.with_more extra, nonempty, within⟩

/-- Values are packed just if the descriptor is sound, every field gets a value that it
admits, and the record has at least one byte and is not too long. Otherwise the failure is
of the class, and at the field, of the first violation; where that is a fault of the
descriptor, it is this fault that is reported. Values that no field is left for change
nothing. -/
theorem pack_outcome (descriptor : String) (values : List Value) :
    ((∃ bytes, pack descriptor values = .ok bytes) ↔
      ∃ fields, Descriptor.fields descriptor = .ok fields ∧ Fit fields values ∧
        1 ≤ recordSize fields values) ∧
    (∀ bytes fields, pack descriptor values = .ok bytes →
      Descriptor.fields descriptor = .ok fields → bytes.length = recordSize fields values) ∧
    (∀ kind place,
      (∃ error, pack descriptor values = .error error ∧ error.report.kind = kind ∧
        error.report.field = place) ↔ Violation descriptor values kind place) ∧
    (∀ cause, pack descriptor values = .error (.descriptor cause) ↔
      Fit (Descriptor.leading descriptor) values ∧ Descriptor.fields descriptor = .error cause) ∧
    ∀ extra, (Descriptor.leading descriptor).countP Field.holdsValue ≤ values.length →
      pack descriptor (values ++ extra) = pack descriptor values := by
  refine ⟨⟨?_, ?_⟩, ?_, ?_, fun cause => pack_eq_descriptor_error_iff,
    fun extra enough => pack_append extra enough⟩
  · rintro ⟨bytes, packs⟩
    obtain ⟨fields, known, packed, nonempty, within⟩ := pack_eq_ok_iff.mp packs
    refine ⟨fields, known, fit_iff_packed.mpr ⟨bytes, packed, within⟩, ?_⟩
    rw [← length_of_packed packed]
    exact List.length_pos_iff.mpr nonempty
  · rintro ⟨fields, known, fit, positive⟩
    obtain ⟨bytes, packed, within⟩ := fit_iff_packed.mp fit
    rw [← length_of_packed packed] at positive
    exact ⟨bytes, pack_eq_ok_iff.mpr
      ⟨fields, known, packed, List.length_pos_iff.mp positive, within⟩⟩
  · intro bytes fields packs known
    obtain ⟨_, same, packed, _⟩ := pack_eq_ok_iff.mp packs
    cases known.symm.trans same
    exact length_of_packed packed
  · intro kind place
    constructor
    · rintro ⟨error, failed, rfl, rfl⟩
      exact violation_of_pack failed
    · exact pack_of_violation

/-- A number that is out of range counts before the want of values for later fields, and
before a letter that is unknown. -/
example : ∃ error, pack "xb2hz" [.int64 128] = .error error ∧
    error.report.kind = .typeMismatch ∧ error.report.field = some 1 :=
  ⟨_, by with_unfolding_all rfl, rfl, rfl⟩

end Record

end OrderPack
