import Mathlib.Data.List.TakeWhile
import OrderPack.Proofs.Record.Refusal
import OrderPack.Proofs.Record.RoundTrip
import OrderPack.Proofs.Record.Unpacking

/-! Values that were read are packed again. A field keeps what it yields as it is, so the
new record reads back as the same values, wherever it can be made at all; what stands in
its way can only be a number wider than its field, or the length of the record.

The bytes need not be those of before. Packing stores text of a fixed width with all that
is in it, and reading ends the text at its first NUL, so whatever was stored behind that
NUL is zero the next time. This is the only difference there can be. -/
namespace OrderPack

namespace Text

/-- Nothing but NULs stands behind the first NUL. -/
def EndsAtNul (chars : List Char) : Prop := ∀ c ∈ chars.dropWhile (· != '\x00'), c = '\x00'

theorem untilNul_untilNul (chars : List Char) : untilNul (untilNul chars) = untilNul chars :=
  List.takeWhile_idem

theorem untilNul_append_dropWhile (chars : List Char) :
    untilNul chars ++ chars.dropWhile (· != '\x00') = chars := List.takeWhile_append_dropWhile

end Text

namespace Field

theorem eq_zeros_iff {row : List UInt8} :
    row = zeros count ↔ row.length = count ∧ ∀ byte ∈ row, byte = 0 := List.eq_replicate_iff

/-- A text that was cut at its first NUL is stored as before, if nothing but NULs stood
behind it. -/
theorem fixedText_untilNul_iff (width : Nat) (chars : List Char) :
    fixedText width (Text.untilNul (Text.takeFitting width chars)) = fixedText width chars ↔
      Text.EndsAtNul (Text.takeFitting width chars) := by
  have fits := (Text.takeFitting_longestFitting width chars).fits
  have whole := Text.untilNul_append_dropWhile (Text.takeFitting width chars)
  unfold fixedText Text.EndsAtNul
  generalize Text.takeFitting width chars = kept at fits whole
  generalize List.dropWhile (· != '\x00') kept = behind at whole ⊢
  generalize Text.untilNul kept = before at whole ⊢
  subst whole
  rw [Text.utf8_append, List.length_append] at fits
  have again : Text.takeFitting width before = before := Text.takeFitting_eq_self (by omega)
  simp only [again, Text.utf8_append, List.append_assoc, List.append_right_inj,
    List.length_append]
  rw [eq_comm, eq_zeros_iff, ← Text.utf8_all_zero_iff]
  constructor
  · rintro ⟨_, zero⟩ byte found
    exact zero byte (List.mem_append_left _ found)
  · intro zero
    refine ⟨?_, ?_⟩
    · rw [List.length_append, length_zeros]
      omega
    · intro byte found
      rcases List.mem_append.mp found with found | found
      · exact zero byte found
      · exact (eq_zeros_iff.mp rfl).2 byte found

/-- What a size keeps of a row of bytes it keeps as it is. -/
theorem image_image (field : Field) (content : List UInt8) :
    field.image (field.image content) = field.image content := by
  by_cases fixed : field.sized = true
  · have length := length_image fixed content
    generalize field.image content = stored at length
    rw [image, if_pos fixed, length, Nat.sub_self, ← length, List.take_length]
    exact List.append_nil stored
  · rw [image, if_neg fixed]

/-- Of a text in a fixed width nothing but NULs is stored behind its first NUL. No other
field stores anything there that it would not give back. -/
def EndsAtNul (field : Field) (given : Value) : Prop :=
  match field.tag, given with
  | .fixedText, .text content =>
    Text.EndsAtNul (Text.takeFitting field.size content.toList)
  | .text, .text content =>
    field.sized = true → Text.EndsAtNul (Text.takeFitting field.size content.toList)
  | _, _ => True

/-- A field keeps one thing only of a value. -/
theorem Keeps.unique {field : Field} {given kept other : Value} (first : field.Keeps given kept)
    (second : field.Keeps given other) : kept = other := by
  have fixed : ∀ width, KeepsFixed width given kept → KeepsFixed width given other →
      kept = other := by
    rintro width ⟨content, row, rfl, fitting, rfl⟩ ⟨_, _, ⟨⟩, fits, rfl⟩
    rw [fitting.unique fits]
  obtain ⟨tag, size, sized⟩ := field
  cases tag with
  | padding => exact first.elim
  | fixedText => exact fixed size first second
  | text =>
    cases sized with
    | true => exact fixed size first second
    | false =>
      obtain ⟨content, rfl, rfl⟩ := first
      obtain ⟨_, ⟨⟩, rfl⟩ := second
      rfl
  | raw | sizedRaw =>
    obtain ⟨content, rfl, rfl⟩ := first
    obtain ⟨_, ⟨⟩, rfl⟩ := second
    rfl
  | bits | scalar scalar => exact Eq.trans first (Eq.symm second)

/-- What a field yields it keeps as it is. -/
theorem Yields.keeps {field : Field} {value : Value} (yields : field.Yields value)
    (formed : field.WellFormed) : field.Keeps value value := by
  have fixed : ∀ width content, Text.untilNul content.toList = content.toList →
      (Text.bytes content).length ≤ width → KeepsFixed width (.text content) (.text content) := by
    intro width content bare fits
    exact ⟨content, content.toList, rfl, .whole fits, by rw [bare, String.ofList_toList]⟩
  obtain ⟨tag, size, sized⟩ := field
  cases tag with
  | padding => exact yields
  | fixedText =>
    obtain ⟨content, rfl, bare, fits⟩ := yields
    exact fixed size content bare fits
  | text =>
    obtain ⟨content, rfl, bare, fits⟩ := yields
    cases sized with
    | true => exact fixed size content bare (fits rfl)
    | false => exact ⟨content, rfl, by rw [bare, String.ofList_toList]⟩
  | raw =>
    obtain ⟨content, rfl, length⟩ := yields
    refine ⟨content, rfl, ?_⟩
    cases sized with
    | true =>
      have full : content.length = size := length rfl
      rw [image, if_pos rfl, full, Nat.sub_self, ← full, List.take_length]
      exact congrArg Value.bytes (List.append_nil content).symm
    | false => rfl
  | sizedRaw =>
    obtain ⟨content, rfl⟩ := yields
    obtain rfl : sized = false := formed
    exact ⟨content, rfl, rfl⟩
  | bits | scalar scalar => rfl

/-- A value that was read is written in as many bytes as the one given, and in the same
ones unless text was stored behind a NUL. -/
theorem respell {field : Field} {given read : Value} {front : List UInt8}
    (formed : field.WellFormed) (holds : field.holdsValue = true)
    (spelt : field.Spells given front) (keeps : field.Keeps given read) :
    ∃ again, field.Spells read again ∧ again.length = front.length ∧
      (again = front ↔ field.EndsAtNul given) := by
  have fixed : ∀ width content kept, Text.LongestFitting width content kept →
      fixedText width (String.ofList (Text.untilNul kept)).toList =
        fixedText width (Text.untilNul (Text.takeFitting width content)) := by
    intro width content kept fitting
    rw [String.toList_ofList, fitting.unique (Text.takeFitting_longestFitting width content)]
  obtain ⟨tag, size, sized⟩ := field
  cases tag with
  | padding => cases holds
  | fixedText =>
    obtain ⟨content, rfl, rfl⟩ := spelt
    obtain ⟨_, kept, ⟨⟩, fitting, rfl⟩ := keeps
    refine ⟨_, ⟨_, rfl, rfl⟩, ?_, ?_⟩
    · rw [length_fixedText, length_fixedText]
    · simp only [fixed size _ kept fitting]
      exact fixedText_untilNul_iff size content.toList
  | text =>
    cases sized with
    | true =>
      obtain ⟨content, rfl, rfl⟩ := spelt
      obtain ⟨_, kept, ⟨⟩, fitting, rfl⟩ := keeps
      refine ⟨_, ⟨_, rfl, rfl⟩, ?_, ?_⟩
      · simp only [if_true, length_fixedText]
      · simp only [if_true, fixed size _ kept fitting, EndsAtNul, true_imp_iff]
        exact fixedText_untilNul_iff size content.toList
    | false =>
      obtain ⟨content, rfl, rfl⟩ := spelt
      obtain ⟨_, ⟨⟩, rfl⟩ := keeps
      have same : terminated (Text.bytes (String.ofList (Text.untilNul content.toList))) =
          terminated (Text.bytes content) := by
        rw [terminated, terminated, Text.bytes, Text.bytes, String.toList_ofList, beforeNul_utf8,
          beforeNul_utf8, Text.untilNul_untilNul]
      refine ⟨_, ⟨_, rfl, rfl⟩, congrArg List.length same, ?_, fun _ => same⟩
      intro _ sized
      exact absurd sized Bool.false_ne_true
  | raw =>
    obtain ⟨content, rfl, rfl⟩ := spelt
    obtain ⟨_, ⟨⟩, rfl⟩ := keeps
    have same := image_image ⟨.raw, size, sized⟩ content
    exact ⟨_, ⟨_, rfl, rfl⟩, congrArg List.length same, fun _ => trivial, fun _ => same⟩
  | sizedRaw =>
    obtain ⟨content, rfl, rfl⟩ := spelt
    obtain ⟨_, ⟨⟩, rfl⟩ := keeps
    refine ⟨_, ⟨_, rfl, rfl⟩, ?_⟩
    rw [image_image]
    exact ⟨rfl, fun _ => trivial, fun _ => rfl⟩
  | bits | scalar scalar =>
    obtain rfl : read = given := keeps
    exact ⟨front, spelt, rfl, fun _ => trivial, fun _ => rfl⟩

/-- A number that is out of the width its field is declared with. -/
def OutOfWidth (field : Field) (value : Value) (cause : Misfit) : Prop :=
  match field.tag, value with
  | .bits, .uint64 n =>
    ¬Value.Unsigned field.size n ∧ cause = .range n.toNat field.size false
  | .scalar (.int width), .int64 n =>
    (width = .w16 ∨ width = .w32) ∧ ¬Value.Signed width.bits n ∧
      cause = .range n.toInt width.bits true
  | .scalar (.uint width), .uint64 n =>
    (width = .w16 ∨ width = .w32) ∧ ¬Value.Unsigned width.bits n ∧
      cause = .range n.toNat width.bits false
  | _, _ => False

private theorem error_of_bind {check : Except Misfit α} {next : α → β} {cause : Misfit}
    (failed : (do let a ← check; return next a) = Except.error cause) : check = .error cause := by
  cases check with
  | error first => exact congrArg _ (Except.error.inj failed)
  | ok a => cases failed

private theorem expectUnsigned_error {n : UInt64} {cause : Misfit}
    (failed : (Value.uint64 n).expectUnsigned bits = .error cause) :
    ¬Value.Unsigned bits n ∧ cause = .range n.toNat bits false := by
  rw [Value.expectUnsigned] at failed
  split at failed
  · cases failed
  · cases failed
    exact ⟨‹_›, rfl⟩

private theorem expectSigned_error {n : Int64} {cause : Misfit}
    (failed : (Value.int64 n).expectSigned bits = .error cause) :
    ¬Value.Signed bits n ∧ cause = .range n.toInt bits true := by
  simp only [Value.expectSigned] at failed
  split at failed
  · cases failed
  · cases failed
    exact ⟨‹_›, rfl⟩

/-- A width that a word can be out of is one of the two narrow ones. -/
private theorem narrow_of_out {width : IntWidth} (word : width.bits = 64 → False) :
    width = .w16 ∨ width = .w32 := by
  cases width with
  | w16 => exact .inl rfl
  | w32 => exact .inr rfl
  | w64 | recno => exact (word rfl).elim

theorem signed_word (n : Int64) : Value.Signed 64 n := ⟨n.le_toInt, n.toInt_lt⟩

/-- What a field yields suits it, but for numbers out of its width. -/
theorem Yields.outOfWidth {field : Field} {value : Value} {cause : Misfit}
    (yields : field.Yields value) (unsuited : field.encode value = .error cause) :
    field.OutOfWidth value cause := by
  obtain ⟨tag, size, sized⟩ := field
  cases tag with
  | padding => exact yields
  | fixedText =>
    obtain ⟨content, rfl, _⟩ := yields
    cases unsuited
  | text =>
    obtain ⟨content, rfl, _⟩ := yields
    cases unsuited
  | raw =>
    obtain ⟨content, rfl, _⟩ := yields
    cases unsuited
  | sizedRaw =>
    obtain ⟨content, rfl⟩ := yields
    cases unsuited
  | bits =>
    obtain ⟨n, rfl, _⟩ := yields
    exact expectUnsigned_error (error_of_bind unsuited)
  | scalar scalar =>
    cases scalar with
    | int8 =>
      obtain ⟨n, rfl, small⟩ := yields
      exact absurd small (expectSigned_error (error_of_bind unsuited)).1
    | uint8 =>
      obtain ⟨n, rfl, small⟩ := yields
      exact absurd small (expectUnsigned_error (error_of_bind unsuited)).1
    | int width =>
      obtain ⟨n, rfl⟩ := yields
      obtain ⟨out, rfl⟩ := expectSigned_error (error_of_bind unsuited)
      exact ⟨narrow_of_out fun word => out (word ▸ signed_word n), out, rfl⟩
    | uint width =>
      obtain ⟨n, rfl⟩ := yields
      obtain ⟨out, rfl⟩ := expectUnsigned_error (error_of_bind unsuited)
      exact ⟨narrow_of_out fun word => out (word ▸ unsigned_word n), out, rfl⟩
    | recordId =>
      obtain ⟨n, rfl⟩ := yields
      exact absurd (unsigned_word n) (expectUnsigned_error (error_of_bind unsuited)).1

end Field

namespace Kept

theorem unique (first : Kept fields given reads) (second : Kept fields given others) :
    reads = others := by
  induction first generalizing others with
  | ended =>
    cases second
    rfl
  | value keeps _ ih =>
    cases second with
    | value again later => rw [keeps.unique again, ih later]

/-- Values that fields yield are kept as they are. -/
theorem of_yields {fields : List Field} {reads : List Value}
    (formed : ∀ field ∈ fields, field.WellFormed)
    (yields : List.Forall₂ Field.Yields fields reads) : Kept fields reads reads := by
  induction yields with
  | nil => exact .ended
  | cons yielded _ ih =>
    exact .value (yielded.keeps (formed _ List.mem_cons_self))
      (ih fun field found => formed field (List.mem_cons_of_mem _ found))

end Kept

/-- Of no text in a fixed width anything but NULs is stored behind a NUL. -/
def EndAtNul : List Field → List Value → Prop
  | field :: fields, given :: values => field.EndsAtNul given ∧ EndAtNul fields values
  | _, _ => True

/-- The values read from a record make one of the same length, and the same one unless
text was stored behind a NUL. -/
theorem Packed.again {fields : List Field} {values read : List Value} {bytes : List UInt8}
    (packed : Packed fields values bytes) (formed : ∀ field ∈ fields, field.WellFormed)
    (kept : Kept (fields.filter Field.holdsValue) values read) :
    ∃ again, Packed fields read again ∧ again.length = bytes.length ∧
      (again = bytes ↔ EndAtNul (fields.filter Field.holdsValue) values) := by
  induction packed generalizing read with
  | ended =>
    cases kept
    exact ⟨[], .ended, rfl, fun _ => trivial, fun _ => rfl⟩
  | @padding fields values bytes field skips later ih =>
    rw [List.filter_cons_of_neg (Bool.eq_false_iff.mp skips)] at kept ⊢
    obtain ⟨again, packed, length, same⟩ :=
      ih (fun field found => formed field (List.mem_cons_of_mem _ found)) kept
    refine ⟨_, .padding skips packed, ?_, ?_⟩
    · rw [List.length_append, List.length_append, length]
    · rw [List.append_right_inj, same]
  | @value fields values bytes field given front holds spelt later ih =>
    rw [List.filter_cons_of_pos holds] at kept ⊢
    cases kept with
    | value keeps kept =>
      obtain ⟨again, packed, length, same⟩ :=
        ih (fun field found => formed field (List.mem_cons_of_mem _ found)) kept
      obtain ⟨first, respelt, firstLength, firstSame⟩ :=
        Field.respell (formed field List.mem_cons_self) holds spelt keeps
      refine ⟨_, .value holds respelt packed, ?_, ?_⟩
      · rw [List.length_append, List.length_append, firstLength, length]
      · rw [EndAtNul, ← firstSame, ← same]
        constructor
        · intro whole
          exact List.append_inj whole firstLength
        · rintro ⟨rfl, rfl⟩
          rfl

/-- The value read for a field is one that it yields. -/
theorem yields_at {fields : List Field} {place : Nat} {field : Field} {reads : List Value}
    {value : Value} (yields : List.Forall₂ Field.Yields fields reads)
    (stands : fields[place]? = some field) (found : reads[place]? = some value) :
    field.Yields value := by
  obtain ⟨inFields, rfl⟩ := List.getElem?_eq_some_iff.mp stands
  obtain ⟨inReads, rfl⟩ := List.getElem?_eq_some_iff.mp found
  exact yields.get inFields inReads

namespace Record

/-- A packed record reads back as the values that its fields keep. -/
theorem unpack_of_packed {descriptor : String} {fields : List Field} {values : List Value}
    {bytes : List UInt8} (known : Descriptor.fields descriptor = .ok fields)
    (packed : Packed fields values bytes) (nonempty : bytes ≠ [])
    (short : bytes.length ≤ maxLength) :
    ∃ read, unpack descriptor bytes = .ok read ∧
      Kept (fields.filter Field.holdsValue) values read := by
  obtain ⟨last, read, passed, all, kept⟩ :=
    Reading.foldlM_of_packed packed (Descriptor.fields_arranged known) short 0 0 []
  refine ⟨read, ?_, kept⟩
  rw [unpack_eq known nonempty, passed]
  exact congrArg Except.ok all

/-- What is read from a packed record packs again. -/
theorem pack_read {descriptor : String} {fields : List Field} {values read : List Value}
    {buffer : List UInt8} (known : Descriptor.fields descriptor = .ok fields)
    (packs : pack descriptor values = .ok buffer)
    (unpacks : unpack descriptor buffer = .ok read) :
    ∃ again, pack descriptor read = .ok again ∧ again.length = buffer.length ∧
      (again = buffer ↔ EndAtNul (fields.filter Field.holdsValue) values) := by
  obtain ⟨_, same, packed, nonempty, short⟩ := pack_eq_ok_iff.mp packs
  cases same.symm.trans known
  obtain ⟨_, found, kept⟩ := unpack_of_packed known packed nonempty short
  cases found.symm.trans unpacks
  obtain ⟨again, repacked, length, same⟩ :=
    packed.again (Descriptor.fields_arranged known).wellFormed kept
  refine ⟨again, pack_eq_ok_iff.mpr ⟨fields, known, repacked, ?_, ?_⟩, length, same⟩
  · rintro rfl
    exact nonempty (List.eq_nil_of_length_eq_zero length.symm)
  · rwa [length]

/-- What is read from a packed record packs again, into the same number of bytes. The
bytes are the same ones just when no text in a fixed width was stored with anything but
NULs behind its first NUL. So among records that store no such text there is only one
for the values that are read from it. -/
theorem pack_read_eq_iff {descriptor : String} {values read : List Value} {buffer : List UInt8}
    (packs : pack descriptor values = .ok buffer)
    (unpacks : unpack descriptor buffer = .ok read) :
    ∃ fields again, Descriptor.fields descriptor = .ok fields ∧
      pack descriptor read = .ok again ∧ again.length = buffer.length ∧
      (again = buffer ↔ EndAtNul (fields.filter Field.holdsValue) values) ∧
      ∀ (others : List Value) (other : List UInt8), pack descriptor others = .ok other →
        unpack descriptor other = .ok read →
        EndAtNul (fields.filter Field.holdsValue) values →
        EndAtNul (fields.filter Field.holdsValue) others → other = buffer := by
  obtain ⟨fields, known, _⟩ := pack_eq_ok_iff.mp packs
  obtain ⟨again, repacks, length, same⟩ := pack_read known packs unpacks
  refine ⟨fields, again, known, repacks, length, same, ?_⟩
  intro others other packsOther unpacksOther closed closedOther
  obtain ⟨_, repacksOther, _, sameOther⟩ := pack_read known packsOther unpacksOther
  cases repacksOther.symm.trans repacks
  exact (sameOther.mpr closedOther).symm.trans (same.mpr closed)

/-- A text cut inside a character, a text with NULs up to its width, and a text of open
length with more behind its NUL. -/
theorem pack_read_eq_iff_cut_texts :
    pack "3s4SSxu" [.text "aaé", .text "b\x00\x00\x00c", .text "d\x00e", .bytes [0]] =
      .ok [97, 97, 0, 98, 0, 0, 0, 100, 0, 0, 0] ∧
    unpack "3s4SSxu" [97, 97, 0, 98, 0, 0, 0, 100, 0, 0, 0] =
      .ok [.text "aa", .text "b", .text "d", .bytes [0]] ∧
    ∃ fields again, Descriptor.fields "3s4SSxu" = .ok fields ∧
      pack "3s4SSxu" [.text "aa", .text "b", .text "d", .bytes [0]] = .ok again ∧
      again.length = ([97, 97, 0, 98, 0, 0, 0, 100, 0, 0, 0] : List UInt8).length ∧
      (again = [97, 97, 0, 98, 0, 0, 0, 100, 0, 0, 0] ↔
        EndAtNul (fields.filter Field.holdsValue)
          [.text "aaé", .text "b\x00\x00\x00c", .text "d\x00e", .bytes [0]]) ∧
      ∀ (others : List Value) (other : List UInt8), pack "3s4SSxu" others = .ok other →
        unpack "3s4SSxu" other = .ok [.text "aa", .text "b", .text "d", .bytes [0]] →
        EndAtNul (fields.filter Field.holdsValue)
          [.text "aaé", .text "b\x00\x00\x00c", .text "d\x00e", .bytes [0]] →
        EndAtNul (fields.filter Field.holdsValue) others →
        other = [97, 97, 0, 98, 0, 0, 0, 100, 0, 0, 0] := by
  have packs : pack "3s4SSxu"
      [.text "aaé", .text "b\x00\x00\x00c", .text "d\x00e", .bytes [0]] =
      .ok [97, 97, 0, 98, 0, 0, 0, 100, 0, 0, 0] := by with_unfolding_all rfl
  have unpacks : unpack "3s4SSxu" [97, 97, 0, 98, 0, 0, 0, 100, 0, 0, 0] =
      .ok [.text "aa", .text "b", .text "d", .bytes [0]] := by with_unfolding_all rfl
  exact ⟨packs, unpacks, pack_read_eq_iff packs unpacks⟩

/-- Two records of one descriptor that read as the same text: what was stored behind the
NUL is lost when the text is packed again. -/
theorem repacking_loses_text_behind_nul :
    pack "3s" [.text "a\x00b"] = .ok [97, 0, 98] ∧
    unpack "3s" [97, 0, 98] = .ok [.text "a"] ∧
    pack "3s" [.text "a"] = .ok [97, 0, 0] ∧
    unpack "3s" [97, 0, 0] = .ok [.text "a"] ∧
    ¬∀ (descriptor : String) (values read : List Value) (buffer : List UInt8),
      pack descriptor values = .ok buffer → unpack descriptor buffer = .ok read →
        pack descriptor read = .ok buffer := by
  have stored : pack "3s" [.text "a\x00b"] = .ok [97, 0, 98] := by with_unfolding_all rfl
  have found : unpack "3s" [97, 0, 98] = .ok [.text "a"] := by with_unfolding_all rfl
  have again : pack "3s" [.text "a"] = .ok [97, 0, 0] := by with_unfolding_all rfl
  refine ⟨stored, found, again, by with_unfolding_all rfl, ?_⟩
  intro restored
  have same := restored "3s" _ _ _ stored found
  rw [again] at same
  cases same

/-- Whatever values are read, from bytes of any kind, they pack into a record that reads as
the same values. Only three things can keep them from it: a number is out of the narrow
width its field is declared with, there is nothing to write, or the record would be too
long, since a buffer may have any length to be read. -/
theorem pack_unpacked {descriptor : String} {buffer : List UInt8} {read : List Value}
    (unpacks : unpack descriptor buffer = .ok read) :
    ∃ fields, Descriptor.fields descriptor = .ok fields ∧
      ((∃ again, pack descriptor read = .ok again ∧ unpack descriptor again = .ok read) ∨
        ∃ error, pack descriptor read = .error error ∧
          ((error.report.kind = .typeMismatch ∧ ∃ place field value cause,
              error = .misfit place field.tag cause ∧ fields[place]? = some field ∧
              read[(fields.take place).countP Field.holdsValue]? = some value ∧
              field.OutOfWidth value cause) ∨
            (error.report.kind = .invalidArgument ∧ error = .empty ∧
              packedSize descriptor read = .ok 0) ∨
            (error.report.kind = .invalidArgument ∧ ∃ place more, error = .tooLong place ∧
              Packed (fields.take (place + 1)) read more ∧ maxLength < more.length))) := by
  obtain ⟨fields, known, yields⟩ := unpack_yields unpacks
  have formed := (Descriptor.fields_arranged known).wellFormed
  have settled : Kept (fields.filter Field.holdsValue) read read :=
    .of_yields (fun field found => formed field (List.mem_of_mem_filter found)) yields
  refine ⟨fields, known, ?_⟩
  cases packs : pack descriptor read with
  | ok again =>
    obtain ⟨_, same, packed, nonempty, short⟩ := pack_eq_ok_iff.mp packs
    cases same.symm.trans known
    obtain ⟨reread, found, kept⟩ := unpack_of_packed known packed nonempty short
    rw [kept.unique settled] at found
    exact .inl ⟨again, rfl, found⟩
  | error error =>
    refine .inr ⟨error, rfl, ?_⟩
    rcases refused_of_pack known packs with refused | ⟨rfl, nothing⟩
    · cases refused with
      | missing stands _ _ holds spent =>
        -- There is a value for every field that holds one.
        have inside := getElem?_filter_countP stands holds
        obtain ⟨within, _⟩ := List.getElem?_eq_some_iff.mp inside
        rw [yields.length_eq] at within
        exact absurd spent (Nat.not_le.mpr within)
      | misfit stands _ _ holds next unsuited =>
        have yielded := yields_at yields (getElem?_filter_countP stands holds) next
        exact .inl ⟨rfl, _, _, _, _, rfl, stands, next, yielded.outOfWidth unsuited⟩
      | tooLong _ _ _ grown long =>
        exact .inr (.inr ⟨rfl, _, _, rfl, grown, long⟩)
    · exact .inr (.inl ⟨rfl, rfl, nothing⟩)

/-- Padding that is not zero, a number in more bytes than it takes, text with bytes behind
its NUL, and bytes behind the record. -/
theorem pack_unpacked_odd_bytes :
    unpack "xQ3sSq" [7, 226, 0, 0, 97, 0, 98, 99, 0, 16, 0, 0, 0, 0, 0, 0, 0, 5, 1, 1] =
      .ok [.uint64 8256, .text "a", .text "c", .int64 5] ∧
    ∃ fields, Descriptor.fields "xQ3sSq" = .ok fields ∧
      ((∃ again, pack "xQ3sSq" [.uint64 8256, .text "a", .text "c", .int64 5] = .ok again ∧
          unpack "xQ3sSq" again = .ok [.uint64 8256, .text "a", .text "c", .int64 5]) ∨
        ∃ error, pack "xQ3sSq" [.uint64 8256, .text "a", .text "c", .int64 5] = .error error ∧
          ((error.report.kind = .typeMismatch ∧ ∃ place field value cause,
              error = .misfit place field.tag cause ∧ fields[place]? = some field ∧
              [Value.uint64 8256, .text "a", .text "c", .int64 5][(fields.take place).countP
                Field.holdsValue]? = some value ∧
              field.OutOfWidth value cause) ∨
            (error.report.kind = .invalidArgument ∧ error = .empty ∧
              packedSize "xQ3sSq" [.uint64 8256, .text "a", .text "c", .int64 5] = .ok 0) ∨
            (error.report.kind = .invalidArgument ∧ ∃ place more, error = .tooLong place ∧
              Packed (fields.take (place + 1))
                [.uint64 8256, .text "a", .text "c", .int64 5] more ∧
              maxLength < more.length))) := by
  have unpacks : unpack "xQ3sSq"
      [7, 226, 0, 0, 97, 0, 98, 99, 0, 16, 0, 0, 0, 0, 0, 0, 0, 5, 1, 1] =
      .ok [.uint64 8256, .text "a", .text "c", .int64 5] := by with_unfolding_all rfl
  exact ⟨unpacks, pack_unpacked unpacks⟩

example : pack "xQ3sSq" [.uint64 8256, .text "a", .text "c", .int64 5] =
    .ok [0, 225, 0, 97, 0, 0, 99, 0, 133] := by
  with_unfolding_all rfl

example : unpack "xh" [0, 226, 255, 255] = .ok [.int64 73791] ∧
    pack "xh" [.int64 73791] = .error (.misfit 1 (.scalar (.int .w16)) (.range 73791 16 true)) := by
  constructor <;> with_unfolding_all rfl

end Record

end OrderPack
