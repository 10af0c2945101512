import OrderPack.Proofs.Varint.Ranges

/-! Which of the bytes that are decoded an encoder would write. The classes of one and of two
bytes have one spelling for each of their numbers. In the two longest classes a number has
more of them, since leading digits that add nothing are read as well; the encoder writes the
one that has none of these, but for the seam, where a single zero stands. The bytes of the
least negative class must also spell a number of that class, since nothing else refuses the
others. -/
namespace OrderPack.Varint

/-- No leading digit can be left out. -/
def Compact (digits : List UInt8) : Prop :=
  digits = [0] ∨ ∃ leading ∈ digits.head?, leading ≠ 0

/-- The spellings of unsigned integers that an encoder writes. -/
def CanonicalUnsigned (bytes : List UInt8) : Prop :=
  ∃ first ∈ bytes.head?, first.toNat < 0xe0 ∨ Compact bytes.tail

/-- The spellings that an encoder writes of the signed integer that is read from them. -/
def CanonicalSigned (bytes : List UInt8) (x : Int64) : Prop :=
  ∃ first ∈ bytes.head?,
    0x20 ≤ first.toNat ∧ first.toNat < 0xe0 ∨
    0xe0 ≤ first.toNat ∧ first.toNat < 0xf0 ∧ Compact bytes.tail ∨
    0x10 ≤ first.toNat ∧ first.toNat < 0x20 ∧ x.toInt < mediumMin ∧
      ∃ leading ∈ bytes.tail.head?, leading ≠ 0xff

/-- All these bytes are read as an integer, and none is left. -/
def Accepted (decode : Reader → Except Error (α × Reader)) (bytes : List UInt8) (x : α) : Prop :=
  decode (Reader.ofBuffer bytes 0) = .ok (x, Reader.ofBuffer bytes bytes.length)

/-- What a decoder reads is what its encoder writes, just if it is canonical. -/
structure Canonizes (decode : Reader → Except Error (α × Reader)) (encode : α → List UInt8)
    (canonical : List UInt8 → α → Prop) : Prop where
  /-- It is found out from what has been read, wherever it was read. -/
  written_iff : ∀ buffer cursor x after, decode (Reader.ofBuffer buffer cursor) = .ok (x, after) →
    (buffer.extract cursor after.offset = encode x ↔
      canonical (buffer.extract cursor after.offset) x)
  /-- An encoder writes no other bytes than these. -/
  image : ∀ bytes, (∃ x, encode x = bytes) ↔ ∃ x, Accepted decode bytes x ∧ canonical bytes x
  /-- All others that are read are never written, and what they are read as is written otherwise. -/
  aliased : ∀ bytes x, Accepted decode bytes x → ¬canonical bytes x →
    (∀ y, encode y ≠ bytes) ∧ Accepted decode (encode x) x

@[simp] theorem compact_cons_iff (leading : UInt8) (digits : List UInt8) :
    Compact (leading :: digits) ↔ leading = 0 ∧ digits = [] ∨ leading ≠ 0 := by
  simp [Compact]

@[simp] theorem canonicalUnsigned_cons_iff (first : UInt8) (digits : List UInt8) :
    CanonicalUnsigned (first :: digits) ↔ first.toNat < 0xe0 ∨ Compact digits := by
  simp [CanonicalUnsigned]

@[simp] theorem canonicalSigned_cons_iff (first : UInt8) (digits : List UInt8) (x : Int64) :
    CanonicalSigned (first :: digits) x ↔
      0x20 ≤ first.toNat ∧ first.toNat < 0xe0 ∨
      0xe0 ≤ first.toNat ∧ first.toNat < 0xf0 ∧ Compact digits ∨
      0x10 ≤ first.toNat ∧ first.toNat < 0x20 ∧ x.toInt < mediumMin ∧
        ∃ leading ∈ digits.head?, leading ≠ 0xff := by
  simp [CanonicalSigned]

theorem payloadLength_fromBigEndian_iff (digits : List UInt8) :
    payloadLength (fromBigEndian digits) = digits.length ↔ Compact digits := by
  cases digits with
  | nil => simp [payloadLength, Compact]
  | cons leading digits =>
    have whole := byteLength_fromBigEndian_iff leading digits
    have most := (byteLength_le_iff _ _).mpr (fromBigEndian_lt (leading :: digits))
    have bare : digits = [] ↔ digits.length = 0 := List.length_eq_zero_iff.symm
    rw [List.length_cons] at most
    rw [compact_cons_iff, bare, payloadLength, List.length_cons]
    by_cases zero : leading = 0
    · have fewer : byteLength (fromBigEndian (leading :: digits)) ≠ digits.length + 1 :=
        fun full => whole.mp full zero
      simp only [zero, true_and, ne_eq, not_true, or_false] at fewer most ⊢
      omega
    · have full := whole.mpr zero
      simp only [full, zero, false_and, ne_eq, not_false_iff, or_true, iff_true]
      omega

namespace Form
variable {form : Form} {first : UInt8} {digits : List UInt8}

theorem bytes_eq (lead : form.lead = first.toNat) (length : form.length = digits.length)
    (payload : form.payload = fromBigEndian digits) : first :: digits = form.bytes := by
  rw [bytes, lead, length, payload, UInt8.ofNat_toNat, bigEndian_fromBigEndian]

theorem length_of_bytes_eq (same : first :: digits = form.bytes) : form.length = digits.length := by
  have length := congrArg List.length same
  rw [bytes, List.length_cons, List.length_cons, length_bigEndian] at length
  omega

theorem Valid.lead_of_bytes_eq (valid : form.Valid) (same : first :: digits = form.bytes) :
    form.lead = first.toNat := by
  rw [← valid.toNat_lead, (List.cons.inj same).1]

end Form

namespace Whole
variable {c : Class} {first : UInt8} {digits : List UInt8}

theorem spells (whole : Whole c first digits) :
    Spells (first :: digits) c (c.number first digits) := by
  have spells : Spells (first :: (digits ++ [])) c (c.number first digits) :=
    .complete whole.known whole.length
  rwa [List.append_nil] at spells

/-- The lead bytes of the negative classes come before the others. -/
theorem negative_iff (whole : Whole c first digits) :
    c.number first digits < 0 ↔ first.toNat < 0x80 := by
  have mark := Class.mark_of_ofLead? whole.known
  have range := whole.spells.holds
  have below := fun same : c = .longNegative => (same ▸ whole.spells).negative
  cases c with
  | longNegative =>
    have negative := (below rfl).2
    simp only at mark
    omega
  | mediumNegative | shortNegative | short | medium | long =>
    have holds := range (by simp)
    simp only [Class.Holds, shortMin, shortMax, mediumMax] at mark holds
    omega

/-- A number that is not negative is written as it was read, unless its digits are not compact. -/
theorem eq_encodeNat_iff (whole : Whole c first digits) (positive : 0 ≤ c.number first digits) :
    first :: digits = encodeNat (c.number first digits).toNat ↔
      CanonicalUnsigned (first :: digits) := by
  have mark := Class.mark_of_ofLead? whole.known
  have sign := whole.negative_iff
  have length := whole.length
  have digit := fromBigEndian_lt digits
  rw [encodeNat_eq_bytes, canonicalUnsigned_cons_iff]
  have cases := Form.ofNat_cases (c.number first digits).toNat
  cases c with
  | longNegative | mediumNegative | shortNegative =>
    simp only at mark
    omega
  | short =>
    have none : digits = [] := List.length_eq_zero_iff.mp (Option.some.inj length).symm
    subst none
    simp only [Class.number] at cases mark ⊢
    rcases cases with ⟨_, form⟩ | ⟨_, _, form⟩ | ⟨_, form⟩
    · refine iff_of_true ?_ (.inl (by omega))
      rw [form]
      exact Form.bytes_eq (by simp only; omega) rfl rfl
    · omega
    · omega
  | medium =>
    have one : digits.length = 1 := (Option.some.inj length).symm
    rw [one, span, span] at digit
    simp only [Class.number] at cases mark ⊢
    rcases cases with ⟨_, form⟩ | ⟨_, _, form⟩ | ⟨_, form⟩
    · omega
    · refine iff_of_true ?_ (.inl (by omega))
      rw [form]
      exact Form.bytes_eq (by simp only; omega) one.symm (by simp only; omega)
    · omega
  | long =>
    obtain ⟨_, due⟩ := Class.of_payloadLength?_long length
    have distance : (fromBigEndian digits + 8256 : Int).toNat - 8256 = fromBigEndian digits := by
      omega
    simp only [Class.number] at cases mark ⊢
    rw [distance] at cases
    rcases cases with ⟨_, form⟩ | ⟨_, _, form⟩ | ⟨_, form⟩
    · omega
    · omega
    · rw [form, ← payloadLength_fromBigEndian_iff, or_iff_right (by omega)]
      constructor
      · exact Form.length_of_bytes_eq
      · intro compact
        exact Form.bytes_eq (by simp only; omega) compact rfl

/-- A negative number of the longest class is written as it was read, unless it belongs to
another class or can do without its leading digit. -/
theorem eq_encodeNegative_iff_of_longNegative (whole : Whole .longNegative first digits)
    (word : -(UInt64.size / 2 : Nat) ≤ Class.number first digits .longNegative) :
    first :: digits = encodeNegative (Class.number first digits .longNegative) ↔
      Class.number first digits .longNegative < mediumMin ∧
        ∃ leading ∈ digits.head?, leading ≠ 0xff := by
  obtain ⟨lower, upper⟩ := Class.mark_of_ofLead? whole.known
  obtain ⟨many, due⟩ := Class.of_payloadLength?_longNegative whole.length
  have negative := whole.spells.negative.2
  have valid := Form.ofNegative_valid word negative
  have digit := fromBigEndian_lt digits
  have cases := Form.ofNegative_cases (Class.number first digits .longNegative)
  have complement : (-Class.number first digits .longNegative - 1).toNat =
      span digits.length - 1 - fromBigEndian digits := by
    simp only [Class.number]
    omega
  rw [encodeNegative_eq_bytes]
  rw [complement] at cases
  rcases cases with ⟨least, form⟩ | ⟨above, _, form⟩ | ⟨above, form⟩
  · cases digits with
    | nil =>
      simp only [List.length_nil] at due
      omega
    | cons leading digits =>
      have exact := byteLength_complement_iff leading digits
      constructor
      · intro same
        have length := Form.length_of_bytes_eq same
        rw [form] at length
        exact ⟨least, leading, rfl, exact.mp length⟩
      · rintro ⟨_, _, ⟨⟩, other⟩
        rw [List.length_cons] at form due digit
        rw [form, exact.mpr other]
        refine Form.bytes_eq ?_ rfl ?_
        · simp only
          omega
        · simp only [Class.number, List.length_cons]
          omega
  -- The lead byte of a greater number is greater too.
  all_goals
    have inside : ¬Class.number first digits .longNegative < mediumMin := by
      simp only [mediumMin]
      omega
    refine iff_of_false ?_ (fun canonical => inside canonical.1)
    intro same
    have lead := valid.lead_of_bytes_eq same
    rw [form] at lead
    simp only at lead
    omega

/-- A negative number of the other classes has but one spelling. -/
theorem eq_encodeNegative (whole : Whole c first digits) (negative : c.number first digits < 0)
    (other : c ≠ .longNegative) : first :: digits = encodeNegative (c.number first digits) := by
  have mark := Class.mark_of_ofLead? whole.known
  have sign := whole.negative_iff
  have length := whole.length
  have digit := fromBigEndian_lt digits
  rw [encodeNegative_eq_bytes]
  have cases := Form.ofNegative_cases (c.number first digits)
  cases c with
  | longNegative => exact absurd rfl other
  | mediumNegative =>
    have one : digits.length = 1 := (Option.some.inj length).symm
    rw [one, span, span] at digit
    simp only [Class.number, mediumMin] at cases mark ⊢
    rcases cases with ⟨_, form⟩ | ⟨_, _, form⟩ | ⟨_, form⟩
    · omega
    · rw [form]
      exact Form.bytes_eq (by simp only; omega) one.symm (by simp only; omega)
    · omega
  | shortNegative =>
    have none : digits = [] := List.length_eq_zero_iff.mp (Option.some.inj length).symm
    subst none
    simp only [Class.number, shortMin] at cases mark ⊢
    rcases cases with ⟨_, form⟩ | ⟨_, _, form⟩ | ⟨_, form⟩
    · omega
    · omega
    · rw [form]
      exact Form.bytes_eq (by simp only; omega) rfl rfl
  | short | medium | long =>
    simp only at mark
    omega

/-- Above the negative classes the two conditions are one. -/
theorem canonicalSigned_iff (whole : Whole c first digits) (lower : 0x80 ≤ first.toNat)
    (x : Int64) : CanonicalSigned (first :: digits) x ↔ CanonicalUnsigned (first :: digits) := by
  have upper : first.toNat < 0xf0 := by
    have mark := Class.mark_of_ofLead? whole.known
    cases c <;> simp only at mark <;> omega
  rw [canonicalSigned_cons_iff, canonicalUnsigned_cons_iff]
  by_cases few : first.toNat < 0xe0
  · exact iff_of_true (.inl ⟨by omega, few⟩) (.inl few)
  · constructor
    · rintro (⟨_, few⟩ | ⟨_, _, compact⟩ | ⟨_, few, _⟩)
      · exact .inl few
      · exact .inr compact
      · exact .inl (by omega)
    · rintro (few | compact)
      · exact .inl ⟨by omega, few⟩
      · exact .inr (.inl ⟨by omega, upper, compact⟩)

theorem canonicalSigned_iff_of_longNegative (whole : Whole .longNegative first digits)
    (x : Int64) :
    CanonicalSigned (first :: digits) x ↔
      x.toInt < mediumMin ∧ ∃ leading ∈ digits.head?, leading ≠ 0xff := by
  obtain ⟨lower, upper⟩ := Class.mark_of_ofLead? whole.known
  rw [canonicalSigned_cons_iff]
  constructor
  · rintro (⟨high, _⟩ | ⟨high, _⟩ | ⟨_, _, canonical⟩)
    · omega
    · omega
    · exact canonical
  · intro canonical
    exact .inr (.inr ⟨lower, upper, canonical⟩)

/-- A signed word is written as it was read, just if this is canonical. -/
theorem eq_encodeSigned_iff (whole : Whole c first digits)
    (small : c.number first digits < 0x8000000000000000) :
    first :: digits = encodeSigned (Int64.ofInt (c.number first digits)) ↔
      CanonicalSigned (first :: digits) (Int64.ofInt (c.number first digits)) := by
  have sign := whole.negative_iff
  have range := whole.spells.holds
  have half : (UInt64.size / 2 : Nat) = 9223372036854775808 := rfl
  by_cases word : -0x8000000000000000 ≤ c.number first digits
  · have value : (Int64.ofInt (c.number first digits)).toInt = c.number first digits :=
      Int64.toInt_ofInt_of_le word small
    rw [encodeSigned, value]
    by_cases negative : c.number first digits < 0
    · rw [if_pos negative]
      by_cases least : c = .longNegative
      · subst least
        rw [whole.canonicalSigned_iff_of_longNegative, value]
        exact whole.eq_encodeNegative_iff_of_longNegative (half ▸ word)
      · have mark := Class.mark_of_ofLead? whole.known
        refine iff_of_true (whole.eq_encodeNegative negative least) ?_
        rw [canonicalSigned_cons_iff]
        refine .inl ⟨?_, by omega⟩
        cases c with
        | longNegative => exact absurd rfl least
        | mediumNegative | shortNegative | short | medium | long =>
          simp only at mark
          omega
    · rw [if_neg negative, whole.canonicalSigned_iff (by omega)]
      exact whole.eq_encodeNat_iff (Int.not_lt.mp negative)
  · -- Less than any word is spelled in the longest class only. What a word holds of that is not
    -- negative and belongs to another class.
    have least : c = .longNegative := by
      cases c with
      | longNegative => rfl
      | mediumNegative | shortNegative | short | medium | long =>
        have holds := range (by simp)
        simp only [Class.Holds, mediumMin, shortMin, shortMax, mediumMax] at holds
        omega
    subst least
    have mark := Class.mark_of_ofLead? whole.known
    have wrapped := toInt_of_wrapped whole.spells.negative.1 (Int.not_le.mp word)
    generalize Int64.ofInt (Class.number first digits .longNegative) = x at wrapped ⊢
    have upper := x.toInt_lt
    rw [whole.canonicalSigned_iff_of_longNegative, encodeSigned, if_neg (by omega),
      encodeNat_eq_bytes]
    refine iff_of_false ?_ ?_
    · intro same
      have valid : (Form.ofNat x.toInt.toNat).Valid :=
        Form.ofNat_valid (by simp only [UInt64.size]; omega)
      have lead := valid.lead_of_bytes_eq same
      have high := Form.le_ofNat_lead x.toInt.toNat
      simp only at mark
      omega
    · rintro ⟨inside, _⟩
      simp only [mediumMin] at inside
      omega

end Whole

/-- The bytes between the two places. -/
theorem Passes.extract {buffer : List UInt8} {after : Reader} {c : Class} {first : UInt8}
    {digits : List UInt8} (passes : Passes (Reader.ofBuffer buffer cursor) after c first digits) :
    buffer.extract cursor after.offset = first :: digits := by
  have length : after.offset - cursor = (first :: digits).length := by
    rw [passes.offset, Reader.offset_ofBuffer, List.length_cons]
    omega
  have bytes : buffer.drop cursor = (first :: digits) ++ after.rest := passes.bytes
  rw [List.extract_eq_take_drop, bytes, length, List.take_left]

theorem extract_eq_encodeUnsigned_iff {buffer : List UInt8} {x : UInt64} {after : Reader}
    (read : decodeUnsigned (Reader.ofBuffer buffer cursor) = .ok (x, after)) :
    buffer.extract cursor after.offset = encodeUnsigned x ↔
      CanonicalUnsigned (buffer.extract cursor after.offset) := by
  obtain ⟨c, first, digits, passes, number⟩ := passes_of_decodeUnsigned read
  have positive : 0 ≤ c.number first digits := by
    rw [number]
    exact Int.natCast_nonneg _
  have canonical := passes.eq_encodeNat_iff positive
  rwa [passes.extract, encodeUnsigned, ← Int.toNat_natCast x.toNat, ← number]

theorem extract_eq_encodeSigned_iff {buffer : List UInt8} {x : Int64} {after : Reader}
    (read : decodeSigned (Reader.ofBuffer buffer cursor) = .ok (x, after)) :
    buffer.extract cursor after.offset = encodeSigned x ↔
      CanonicalSigned (buffer.extract cursor after.offset) x := by
  obtain ⟨c, first, digits, passes, small, rfl⟩ := passes_of_decodeSigned read
  rw [passes.extract]
  exact passes.eq_encodeSigned_iff small

/-- The last two facts follow from the first, if what is written is read back. -/
theorem Canonizes.of_written_iff {decode : Reader → Except Error (α × Reader)}
    {encode : α → List UInt8} {canonical : List UInt8 → α → Prop}
    (back : ∀ x, Accepted decode (encode x) x)
    (written : ∀ buffer cursor x after, decode (Reader.ofBuffer buffer cursor) = .ok (x, after) →
      (buffer.extract cursor after.offset = encode x ↔
        canonical (buffer.extract cursor after.offset) x)) :
    Canonizes decode encode canonical := by
  have whole : ∀ bytes x, Accepted decode bytes x → (bytes = encode x ↔ canonical bytes x) := by
    intro bytes x accepted
    have exact := written bytes 0 x _ accepted
    rwa [Reader.offset_ofBuffer, List.extract_eq_take_drop, List.drop_zero, Nat.sub_zero,
      List.take_length] at exact
  refine ⟨written, ?_, ?_⟩
  · intro bytes
    constructor
    · rintro ⟨x, rfl⟩
      exact ⟨x, back x, (whole _ x (back x)).mp rfl⟩
    · rintro ⟨x, accepted, exact⟩
      exact ⟨x, ((whole bytes x accepted).mpr exact).symm⟩
  · intro bytes x accepted other
    refine ⟨?_, back x⟩
    rintro y rfl
    -- The bytes are read in one way only.
    cases accepted.symm.trans (back y)
    exact other ((whole _ x accepted).mp rfl)

theorem accepted_encodeUnsigned (x : UInt64) :
    Accepted decodeUnsigned (encodeUnsigned x) x := by
  have read := decodeUnsigned_encodeUnsigned 0 [] x
  rw [List.append_nil, Nat.zero_add] at read
  simpa [Accepted, Reader.ofBuffer] using read

theorem accepted_encodeSigned (x : Int64) : Accepted decodeSigned (encodeSigned x) x := by
  have read := decodeSigned_encodeSigned 0 [] x
  rw [List.append_nil, Nat.zero_add] at read
  simpa [Accepted, Reader.ofBuffer] using read

/-- The bytes that are read as an integer are what is written for it just if no leading digit can
be left out and they stand in the class of the integer. These are all the bytes that are ever
written, and whatever else is read has a second spelling that is. -/
theorem encodings_canonical :
    Canonizes decodeUnsigned encodeUnsigned (fun bytes _ => CanonicalUnsigned bytes) ∧
    Canonizes decodeSigned encodeSigned CanonicalSigned := by
  constructor
  · apply Canonizes.of_written_iff accepted_encodeUnsigned
    intro buffer cursor x after read
    exact extract_eq_encodeUnsigned_iff read
  · apply Canonizes.of_written_iff accepted_encodeSigned
    intro buffer cursor x after read
    exact extract_eq_encodeSigned_iff read

/-- The least integer of two bytes, spelled in the class of those below it. -/
example : Accepted decodeSigned [0x16, 0xdf, 0xc0] (-8256) ∧
    ¬CanonicalSigned [0x16, 0xdf, 0xc0] (-8256) := by
  refine ⟨by with_unfolding_all rfl, ?_⟩
  simp [mediumMin]

end OrderPack.Varint
