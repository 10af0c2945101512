import OrderPack.Proofs.Arguments
import OrderPack.Proofs.Record.Acceptance

/-! JSON arguments are typed by their own field and by no other. The search for places and the
conversion of items go over two lists side by side; here an item is looked at by its number.
Whatever comes before its field, be it padding or a scalar that stands no times, shifts nothing,
and so values that were made for a descriptor have the kinds that packing asks for. -/
namespace OrderPack

/-- A number that a field of its kind does not admit is out of the field's range. -/
theorem Field.out_of_range {field : Field} {value : Value}
    (kind : field.tag.kind? = some value.kind) (refused : ¬field.Admits value) :
    ∃ number least greatest, value.number? = some number ∧
      field.range? = some (least, greatest) ∧ (number < least ∨ greatest < number) := by
  refine Classical.byContradiction fun inside =>
    refused ⟨kind, fun number least greatest is declared => ?_⟩
  have within : ¬(number < least ∨ greatest < number) :=
    fun out => inside ⟨number, least, greatest, is, declared, out⟩
  omega

namespace Json

/-- A signed number and an unsigned one that is the same number. -/
theorem toInt64_eq_iff {n : UInt64} {m : Int64} :
    n.toNat < UInt64.size / 2 ∧ n.toInt64 = m ↔ m.toInt = n.toNat := by
  have same : n.toNat < UInt64.size / 2 → n.toInt64.toInt = n.toNat := fun small =>
    BitVec.toInt_eq_toNat_of_lt (x := n.toBitVec) (by
      have half : UInt64.size / 2 = 9223372036854775808 := rfl
      rw [UInt64.toNat_toBitVec]
      omega)
  constructor
  · rintro ⟨small, rfl⟩
    exact same small
  · intro number
    have limit := m.toInt_lt
    have small : n.toNat < UInt64.size / 2 := by
      have half : UInt64.size / 2 = 9223372036854775808 := rfl
      omega
    exact ⟨small, Int64.toInt_inj.mp ((same small).trans number.symm)⟩

theorem byte?_eq_some_iff {item : Json} {byte : UInt8} :
    item.byte? = some byte ↔ item = .ofNat byte.toNat := by
  have whole : (UInt64.ofNat byte.toNat).toNat = byte.toNat :=
    UInt64.toNat_ofNat_of_lt' (Nat.lt_trans byte.toNat_lt (by decide))
  constructor
  · intro read
    unfold byte? at read
    split at read
    · rename_i n found
      split at read
      · rename_i small
        cases read
        have same : UInt64.ofNat (UInt8.ofNat n.toNat).toNat = n := by
          rw [UInt8.toNat_ofNat', Nat.mod_eq_of_lt small, UInt64.ofNat_toNat]
        rw [ofNat, ofUInt64, same]
        cases item with
        | number number =>
          cases number with
          | natural =>
            cases found
            rfl
          | negative | real => cases found
        | _ => cases found
      · cases read
    · cases read
  · rintro rfl
    have read : (ofNat byte.toNat).uint64? = some (UInt64.ofNat byte.toNat) := rfl
    rw [byte?, read]
    simp only
    rw [whole, if_pos byte.toNat_lt, UInt8.ofNat_toNat]

/-- Bytes are listed as numbers. -/
theorem mapM_byte?_eq_some_iff {items : List Json} {bytes : List UInt8} :
    items.mapM byte? = some bytes ↔ items = bytes.map fun byte => .ofNat byte.toNat := by
  induction items generalizing bytes with
  | nil => cases bytes <;> simp
  | cons item items ih =>
    cases bytes with
    | nil => simp [List.mapM_cons, Option.bind_eq_some_iff]
    | cons byte bytes =>
      simp only [List.mapM_cons, Option.bind_eq_bind, Option.bind_eq_some_iff, Option.pure_def,
        Option.some.injEq, List.cons.injEq, List.map_cons, byte?_eq_some_iff, ih]
      grind

end Json

namespace Arguments

/-- What an item says under a kind of value. A whole number says itself wherever it is in range,
a string says a text, and bytes are those of a string or are listed as numbers. -/
inductive Means : ValueKind → Json → Value → Prop where
  | natural (same : m.toInt = n.toNat) : Means .int64 (.number (.natural n)) (.int64 m)
  | negative : Means .int64 (.number (.negative n)) (.int64 n)
  | unsigned : Means .uint64 (.number (.natural n)) (.uint64 n)
  | text : Means .text (.string content) (.text content)
  | spelt : Means .bytes (.string content) (.bytes (Text.bytes content))
  | listed : Means .bytes (.array (bytes.map fun byte => .ofNat byte.toNat)) (.bytes bytes)

theorem means_of_coerce {kind : ValueKind} {json : Json} {value : Value}
    (coerced : coerce? kind json = some value) : Means kind json value := by
  cases kind with
  | int64 =>
    obtain ⟨m, read, rfl⟩ := Option.map_eq_some_iff.mp coerced
    unfold Json.int64? at read
    split at read
    · obtain ⟨small, same⟩ := Option.ite_none_right_eq_some.mp read
      exact .natural (Json.toInt64_eq_iff.mp ⟨small, Option.some.inj same⟩)
    · cases read
      exact .negative
    · cases read
  | uint64 =>
    obtain ⟨n, read, rfl⟩ := Option.map_eq_some_iff.mp coerced
    unfold Json.uint64? at read
    split at read
    · cases read
      exact .unsigned
    · cases read
  | text =>
    obtain ⟨content, read, rfl⟩ := Option.map_eq_some_iff.mp coerced
    unfold Json.string? at read
    split at read
    · cases read
      exact .text
    · cases read
  | bytes =>
    obtain ⟨content, read, rfl⟩ := Option.map_eq_some_iff.mp coerced
    unfold Json.bytes? at read
    split at read
    · cases read
      exact .spelt
    · obtain rfl := Json.mapM_byte?_eq_some_iff.mp read
      exact .listed
    · cases read

/-- An item is converted into what it says. -/
theorem coerce?_eq_some_iff {kind : ValueKind} {json : Json} {value : Value} :
    coerce? kind json = some value ↔ Means kind json value := by
  refine ⟨means_of_coerce, ?_⟩
  rintro (same | _ | _ | _ | _ | _)
  · obtain ⟨small, same⟩ := Json.toInt64_eq_iff.mpr same
    rw [coerce?, Json.int64?, if_pos small, same]
    rfl
  · rfl
  · rfl
  · rfl
  · rfl
  · rw [coerce?, Json.bytes?, Json.mapM_byte?_eq_some_iff.mpr rfl]
    rfl

theorem coerce?_eq_none_iff {kind : ValueKind} {json : Json} :
    coerce? kind json = none ↔ ∀ value, ¬Means kind json value := by
  rw [Option.eq_none_iff_forall_ne_some]
  exact forall_congr' fun _ => not_congr coerce?_eq_some_iff

/-- An item is some value by itself just if it says one under some kind. -/
theorem natural?_eq_none_iff {json : Json} :
    natural? json = none ↔ ∀ kind value, ¬Means kind json value := by
  simp only [natural?, Option.or_eq_none_iff, coerce?_eq_none_iff]
  constructor
  · rintro ⟨unsigned, signed, text, bytes⟩ (_ | _ | _ | _)
    · exact signed
    · exact unsigned
    · exact text
    · exact bytes
  · exact fun none => ⟨none _, none _, none _, none _⟩

/-- The item of this number is for the field at this place. The field holds a value of this
kind, and it stands behind as many that hold one as there are items before. -/
structure Assigned (fields : List Field) (item place : Nat) (kind : ValueKind) : Prop where
  stands : ∃ field, fields[place]? = some field ∧ field.tag.kind? = some kind
  behind : (fields.take place).countP Field.holdsValue = item

theorem length_placed (first : Nat) (fields : List Field) :
    (placed first fields).length = fields.countP Field.holdsValue := by
  induction fields generalizing first with
  | nil => rfl
  | cons field fields ih =>
    rw [placed]
    cases found : field.tag.kind? with
    | none =>
      rw [List.countP_cons_of_neg (Bool.eq_false_iff.mp (Field.skips_of_kind found))]
      exact ih (first + 1)
    | some kind =>
      rw [List.countP_cons_of_pos (Field.holdsValue_of_kind found)]
      exact congrArg (· + 1) (ih (first + 1))

/-- A field that holds a value is placed behind those that hold one before it. -/
theorem placed_of_stands {fields : List Field} {field : Field} {kind : ValueKind} (first : Nat)
    (stands : fields[place]? = some field) (found : field.tag.kind? = some kind) :
    (placed first fields)[(fields.take place).countP Field.holdsValue]? =
      some (first + place, kind) := by
  induction fields generalizing first place with
  | nil => cases stands
  | cons other fields ih =>
    cases place with
    | zero =>
      cases stands
      rw [placed, found]
      rfl
    | succ place =>
      have behind : first + (place + 1) = first + 1 + place := by omega
      rw [List.take_succ_cons, placed, behind]
      cases own : other.tag.kind? with
      | none =>
        rw [List.countP_cons_of_neg (Bool.eq_false_iff.mp (Field.skips_of_kind own))]
        exact ih (first + 1) stands
      | some kind =>
        rw [List.countP_cons_of_pos (Field.holdsValue_of_kind own)]
        exact ih (first + 1) stands

theorem assigned_iff {fields : List Field} {item place : Nat} {kind : ValueKind} :
    Assigned fields item place kind ↔ (placed 0 fields)[item]? = some (place, kind) := by
  constructor
  · rintro ⟨⟨field, stands, found⟩, rfl⟩
    simpa only [Nat.zero_add] using placed_of_stands 0 stands found
  · intro stands
    obtain ⟨behind, field, rfl, there, found, count⟩ := placed_getElem? stands
    rw [Nat.zero_add]
    exact ⟨⟨field, there, found⟩, count⟩

/-- An item beyond the last field that holds a value is for none. -/
theorem placed_eq_none_iff {fields : List Field} {item : Nat} :
    (placed 0 fields)[item]? = none ↔ fields.countP Field.holdsValue ≤ item := by
  rw [List.getElem?_eq_none_iff, length_placed]

/-- What becomes of one item, which is for this field or for none. -/
def taken? : Option (Nat × ValueKind) → Json → Option Value
  | some (_, kind), json => coerce? kind json
  | none, json => natural? json

/-- How an item is refused. -/
def refusal (item : Nat) : Option (Nat × ValueKind) → Json → Error
  | some (place, kind), json => .wrongKind item place kind json.render
  | none, json => .noKind item json.render

/-- One item is converted, and the others after it. -/
theorem convert_cons (index : Nat) (kinds : List (Nat × ValueKind)) (json : Json)
    (items : List Json) :
    convert index kinds (json :: items) =
      match taken? kinds[0]? json with
      | some value => (convert (index + 1) kinds.tail items).map (value :: ·)
      | none => .error (refusal index kinds[0]? json) := by
  cases kinds with
  | nil =>
    rw [convert]
    rfl
  | cons own kinds =>
    rw [convert]
    rfl

/-- Every item is converted on its own. -/
theorem convert_eq_ok {index : Nat} {kinds : List (Nat × ValueKind)} {items : List Json}
    {found : List Value} (converted : convert index kinds items = .ok found) :
    found.length = items.length ∧ ∀ (item : Nat) (json : Json), items[item]? = some json →
      found[item]? = taken? kinds[item]? json := by
  induction items generalizing index kinds found with
  | nil =>
    cases kinds <;> cases converted <;> exact ⟨rfl, fun _ _ none => nomatch none⟩
  | cons json items ih =>
    rw [convert_cons] at converted
    split at converted
    · rename_i value own
      cases later : convert (index + 1) kinds.tail items with
      | error error =>
        rw [later] at converted
        cases converted
      | ok others =>
        rw [later] at converted
        cases converted
        obtain ⟨length, each⟩ := ih later
        refine ⟨congrArg (· + 1) length, ?_⟩
        intro item other stands
        cases item with
        | zero =>
          cases stands
          exact own.symm
        | succ item =>
          rw [List.getElem?_cons_succ, each item other stands, List.getElem?_tail]
    · cases converted

/-- If no item is refused, values are found. -/
theorem exists_convert {kinds : List (Nat × ValueKind)} {items : List Json} (index : Nat)
    (taken : ∀ (item : Nat) (json : Json), items[item]? = some json →
      taken? kinds[item]? json ≠ none) :
    ∃ found, convert index kinds items = .ok found := by
  induction items generalizing index kinds with
  | nil => cases kinds <;> exact ⟨[], rfl⟩
  | cons json items ih =>
    obtain ⟨value, own⟩ := Option.ne_none_iff_exists'.mp (taken 0 json rfl)
    have rest : ∀ (item : Nat) (other : Json), items[item]? = some other →
        taken? kinds.tail[item]? other ≠ none := by
      intro item other stands
      rw [List.getElem?_tail]
      exact taken (item + 1) other stands
    obtain ⟨others, later⟩ := ih (index + 1) rest
    refine ⟨value :: others, ?_⟩
    rw [convert_cons, own]
    simp only [later]
    rfl

/-- The first item that is refused is reported, whatever comes after it. -/
theorem convert_refuses {kinds : List (Nat × ValueKind)} {items : List Json} {item : Nat}
    {json : Json} (index : Nat) (stands : items[item]? = some json)
    (refused : taken? kinds[item]? json = none)
    (before : ∀ (earlier : Nat) (other : Json), earlier < item → items[earlier]? = some other →
      taken? kinds[earlier]? other ≠ none) :
    convert index kinds items = .error (refusal (index + item) kinds[item]? json) := by
  induction items generalizing index kinds item with
  | nil => cases stands
  | cons first items ih =>
    rw [convert_cons]
    cases item with
    | zero =>
      cases stands
      rw [refused]
      rfl
    | succ item =>
      obtain ⟨value, own⟩ := Option.ne_none_iff_exists'.mp (before 0 first (Nat.succ_pos item) rfl)
      have none : taken? kinds.tail[item]? json = none := by rwa [List.getElem?_tail]
      have later := ih (index + 1) stands none fun earlier other early given => by
        rw [List.getElem?_tail]
        exact before (earlier + 1) other (Nat.succ_lt_succ early) given
      rw [List.getElem?_tail] at later
      rw [own]
      simp only [later]
      rw [Nat.add_assoc, Nat.add_comm 1]
      rfl

/-- The descriptor gives out before there is a field for every item. It cannot be read at all,
or else fewer fields that hold a value than there are items stand before its first fault. -/
def GivesOut (descriptor : String) (items : List Json) (cause : Descriptor.Error) : Prop :=
  Layout.ofText descriptor = .error cause ∨
    Descriptor.fields descriptor = .error cause ∧
      (Descriptor.leading descriptor).countP Field.holdsValue < items.length

/-- The items are converted by the kinds of the fields that are placed, unless the descriptor
gives out. -/
theorem values_cases (descriptor : String) (items : List Json) :
    (∃ cause, GivesOut descriptor items cause ∧
      values descriptor (.array items) = .error (.descriptor cause)) ∨
    (∀ cause, ¬GivesOut descriptor items cause) ∧
      ∃ kinds : List (Nat × ValueKind), values descriptor (.array items) = convert 0 kinds items ∧
        ∀ item < items.length, kinds[item]? = (placed 0 (Descriptor.leading descriptor))[item]? := by
  unfold values
  cases opened : Layout.ofText descriptor with
  | error cause => exact .inl ⟨cause, .inl opened, rfl⟩
  | ok layout =>
    have leading := Descriptor.leading_of_ofText opened
    have fields : Descriptor.fields descriptor = layout.fields := by
      rw [Descriptor.fields, opened]
      rfl
    cases found : places items.length 0 layout with
    | error cause =>
      refine .inl ⟨cause, .inr ?_, by simp only [found]⟩
      rw [places_eq, length_placed] at found
      split at found
      · cases found
      · rename_i few
        split at found
        · cases found
        · rename_i fault
          cases found
          rw [fields, leading, layout.fields_eq_error_iff]
          exact ⟨fault, Nat.lt_of_not_le few⟩
    | ok kinds =>
      refine .inr ⟨?_, kinds, by simp only [found], ?_⟩
      · rintro cause (unread | ⟨broken, few⟩)
        · cases opened.symm.trans unread
        · rw [fields, layout.fields_eq_error_iff] at broken
          rw [leading] at few
          rw [places_eq, length_placed, if_neg (Nat.not_le_of_lt few), broken] at found
          cases found
      · intro item early
        rw [leading]
        exact getElem?_of_places found early

theorem GivesOut.values_eq {descriptor : String} {items : List Json} {cause : Descriptor.Error}
    (out : GivesOut descriptor items cause) :
    values descriptor (.array items) = .error (.descriptor cause) := by
  rcases values_cases descriptor items with ⟨other, given, failed⟩ | ⟨none, _⟩
  · -- Both readings of the descriptor report the same fault.
    have broken : ∀ {cause}, GivesOut descriptor items cause →
        Descriptor.fields descriptor = .error cause := by
      rintro cause (unread | ⟨broken, _⟩)
      · rw [Descriptor.fields, unread]
        rfl
      · exact broken
    cases (broken out).symm.trans (broken given)
    exact failed
  · exact absurd out (none cause)

/-- An item that cannot be converted: it says nothing under the kind of its field, or it has no
field and says nothing under any kind. -/
inductive Unfit (fields : List Field) (item : Nat) (json : Json) : Prop where
  | field (assigned : Assigned fields item place kind) (refused : ∀ value, ¬Means kind json value)
  | beyond (past : fields.countP Field.holdsValue ≤ item)
      (refused : ∀ kind value, ¬Means kind json value)

theorem unfit_iff {fields : List Field} {item : Nat} {json : Json} :
    Unfit fields item json ↔ taken? (placed 0 fields)[item]? json = none := by
  constructor
  · rintro (⟨assigned, refused⟩ | ⟨past, refused⟩)
    · rw [assigned_iff.mp assigned]
      exact coerce?_eq_none_iff.mpr refused
    · rw [placed_eq_none_iff.mpr past]
      exact natural?_eq_none_iff.mpr refused
  · intro refused
    cases own : (placed 0 fields)[item]? with
    | none =>
      rw [own] at refused
      exact .beyond (placed_eq_none_iff.mp own) (natural?_eq_none_iff.mp refused)
    | some found =>
      rw [own] at refused
      exact .field (assigned_iff.mpr own) (coerce?_eq_none_iff.mp refused)

theorem kind_of_coerce {kind : ValueKind} {json : Json} {value : Value}
    (coerced : coerce? kind json = some value) : value.kind = kind := by
  cases means_of_coerce coerced <;> rfl

/-- A value that is found for a field has its kind. -/
theorem kind_of_values {descriptor : String} {items : List Json} {found : List Value}
    (made : values descriptor (.array items) = .ok found) {item place : Nat} {kind : ValueKind}
    {value : Value} (assigned : Assigned (Descriptor.leading descriptor) item place kind)
    (stands : found[item]? = some value) : value.kind = kind := by
  rcases values_cases descriptor items with ⟨_, _, failed⟩ | ⟨_, kinds, converted, placed⟩
  · cases failed.symm.trans made
  · obtain ⟨length, each⟩ := convert_eq_ok (converted.symm.trans made)
    have early : item < items.length := by
      rw [← length]
      exact (List.getElem?_eq_some_iff.mp stands).1
    have own := each item _ (List.getElem?_eq_getElem early)
    rw [placed item early, assigned_iff.mp assigned, stands] at own
    exact kind_of_coerce own.symm

/-- Values that are found for a descriptor are packed under it unless something else than
their kind is wrong with them. -/
theorem mismatch_of_values {descriptor : String} {items : List Json} {found : List Value}
    (made : values descriptor (.array items) = .ok found) {error : Record.PackError}
    (failed : Record.pack descriptor found = .error error)
    (mismatch : error.report.kind = .typeMismatch) :
    ∃ place field value number least greatest, error.report.field = some place ∧
      (Descriptor.leading descriptor)[place]? = some field ∧
      found[((Descriptor.leading descriptor).take place).countP Field.holdsValue]? =
        some value ∧
      value.number? = some number ∧ field.range? = some (least, greatest) ∧
      (number < least ∨ greatest < number) := by
  have violation := Record.violation_of_pack failed
  rw [mismatch] at violation
  cases named : error.report.field with
  | none =>
    rw [named] at violation
    cases violation
  | some place =>
    rw [named] at violation
    cases violation with
    | @unsuited _ value field stands before holds next refused =>
      cases own : field.tag.kind? with
      | none => cases holds.symm.trans (Field.skips_of_kind own)
      | some kind =>
        cases kind_of_values made ⟨⟨field, stands, own⟩, rfl⟩ next
        obtain ⟨number, least, greatest, is, declared, out⟩ := Field.out_of_range own refused
        exact ⟨place, field, value, number, least, greatest, rfl, stands, next, is, declared, out⟩

/-- Every item of JSON arguments becomes a value of the kind of its own field, so that packing
finds no value of a wrong kind, but only numbers beyond the range of their fields. Nothing is
converted where the descriptor gives out before there is a field for every item. Otherwise the
first item that cannot be converted is reported: with the place of its field if it has one,
and as a fault of usage if it lies beyond the last. -/
theorem arguments_typed_by_fields (descriptor : String) (items : List Json) :
    (∀ found, values descriptor (.array items) = .ok found →
      found.length = items.length ∧
      (∀ item place kind value, Assigned (Descriptor.leading descriptor) item place kind →
        found[item]? = some value → value.kind = kind) ∧
      ∀ error, Record.pack descriptor found = .error error →
        error.report.kind = .typeMismatch →
        ∃ place field value number least greatest, error.report.field = some place ∧
          (Descriptor.leading descriptor)[place]? = some field ∧
          found[((Descriptor.leading descriptor).take place).countP Field.holdsValue]? =
            some value ∧
          value.number? = some number ∧ field.range? = some (least, greatest) ∧
          (number < least ∨ greatest < number)) ∧
    (∀ cause, GivesOut descriptor items cause →
      values descriptor (.array items) = .error (.descriptor cause) ∧
        (Error.descriptor cause).report.kind = .invalidFormat) ∧
    ((∀ cause, ¬GivesOut descriptor items cause) →
      ((∃ found, values descriptor (.array items) = .ok found) ↔
        ∀ (item : Nat) (json : Json), items[item]? = some json →
          ¬Unfit (Descriptor.leading descriptor) item json) ∧
      ∀ (item : Nat) (json : Json), items[item]? = some json →
        Unfit (Descriptor.leading descriptor) item json →
        (∀ (earlier : Nat) (other : Json), earlier < item → items[earlier]? = some other →
          ¬Unfit (Descriptor.leading descriptor) earlier other) →
        ∃ error, values descriptor (.array items) = .error error ∧
          (∀ place kind, Assigned (Descriptor.leading descriptor) item place kind →
            error = .wrongKind item place kind json.render ∧
              error.report.kind = .typeMismatch ∧ error.report.field = some place) ∧
          ((Descriptor.leading descriptor).countP Field.holdsValue ≤ item →
            error = .noKind item json.render ∧ error.report.kind = .usage)) := by
  refine ⟨?_, fun cause out => ⟨out.values_eq, rfl⟩, ?_⟩
  · intro found made
    refine ⟨?_, fun item place kind value => kind_of_values made,
      fun error => mismatch_of_values made⟩
    rcases values_cases descriptor items with ⟨_, _, failed⟩ | ⟨_, kinds, converted, _⟩
    · cases failed.symm.trans made
    · exact (convert_eq_ok (converted.symm.trans made)).1
  · intro sound
    rcases values_cases descriptor items with ⟨cause, out, _⟩ | ⟨_, kinds, converted, placed⟩
    · exact absurd out (sound cause)
    have fit : ∀ {item : Nat} {json : Json}, items[item]? = some json →
        (Unfit (Descriptor.leading descriptor) item json ↔ taken? kinds[item]? json = none) := by
      intro item json stands
      rw [unfit_iff, placed item (List.getElem?_eq_some_iff.mp stands).1]
    rw [converted]
    refine ⟨⟨?_, ?_⟩, ?_⟩
    · rintro ⟨found, made⟩ item json stands unfit
      obtain ⟨length, each⟩ := convert_eq_ok made
      have missing := (each item json stands).trans ((fit stands).mp unfit)
      rw [List.getElem?_eq_none_iff, length] at missing
      exact absurd (List.getElem?_eq_some_iff.mp stands).1 (Nat.not_lt.mpr missing)
    · intro each
      exact exists_convert 0 fun item json stands refused =>
        each item json stands ((fit stands).mpr refused)
    · intro item json stands unfit before
      have first := convert_refuses 0 stands ((fit stands).mp unfit)
        fun earlier other early given refused =>
          before earlier other early given ((fit given).mpr refused)
      rw [placed item (List.getElem?_eq_some_iff.mp stands).1, Nat.zero_add] at first
      refine ⟨_, first, ?_, ?_⟩
      · intro place kind assigned
        rw [assigned_iff.mp assigned]
        exact ⟨rfl, rfl, rfl⟩
      · intro past
        rw [placed_eq_none_iff.mpr past]
        exact ⟨rfl, rfl⟩

/-- Padding and a scalar that stands no times take no item, and one behind the last field is
taken for what it is. -/
example : values "x0qSq" (.array [.string "a", .ofNat 5, .string "b"]) =
    .ok [.text "a", .int64 5, .text "b"] := by
  with_unfolding_all rfl

end Arguments

end OrderPack
