import OrderPack.Proofs.Varint.Addressing
import OrderPack.Proofs.Varint.Truncation

/-! The class of an integer shows in its lead byte, and each class has a range. What is decoded
from bytes of any kind, also such as no encoder writes, is looked at here by the number that
the bytes spell in their class. In all classes but one this number lies in the range of the
class, and it is only left to see whether it is a word. In the class of the least negative
numbers it may lie anywhere below zero, and then it is not refused: what is decoded is the
number as far as a word holds it. -/
namespace OrderPack.Varint

/-- The classes in numeric order. -/
inductive Class where
  | longNegative
  | mediumNegative
  | shortNegative
  | short
  | medium
  | long
  deriving DecidableEq

namespace Class

def rank : Class → Nat
  | .longNegative => 0
  | .mediumNegative => 1
  | .shortNegative => 2
  | .short => 3
  | .medium => 4
  | .long => 5

/-- The class that a lead byte names. -/
def ofLead? (first : UInt8) : Option Class :=
  let mark := first.toNat
  if mark < 0x10 then none
  else if mark < 0x20 then some .longNegative
  else if mark < 0x40 then some .mediumNegative
  else if mark < 0x80 then some .shortNegative
  else if mark < 0xc0 then some .short
  else if mark < 0xe0 then some .medium
  else if mark < 0xf0 then some .long
  else none

/-- The range of a class. -/
def Holds (x : Int) : Class → Prop
  | .longNegative => x < mediumMin
  | .mediumNegative => mediumMin ≤ x ∧ x < shortMin
  | .shortNegative => shortMin ≤ x ∧ x < 0
  | .short => 0 ≤ x ∧ x ≤ shortMax
  | .medium => shortMax < x ∧ x ≤ mediumMax
  | .long => mediumMax < x

/-- How many bytes a lead byte calls for, if there is such an integer at all. A word has eight,
and of those of a negative number not all can be dropped. -/
def payloadLength? (first : UInt8) : Class → Option Nat
  | .longNegative => if first.toNat < 0x18 then some (0x18 - first.toNat) else none
  | .mediumNegative | .medium => some 1
  | .shortNegative | .short => some 0
  | .long => if first.toNat ≤ 0xe8 then some (first.toNat - 0xe0) else none

/-- The number that a lead byte and the bytes it calls for spell. -/
def number (first : UInt8) (digits : List UInt8) : Class → Int
  | .longNegative => fromBigEndian digits - span digits.length
  | .mediumNegative => mediumMin + (first.toNat - 0x20) * 256 + fromBigEndian digits
  | .shortNegative => shortMin + (first.toNat - 0x40)
  | .short => first.toNat - 0x80
  | .medium => 64 + (first.toNat - 0xc0) * 256 + fromBigEndian digits
  | .long => fromBigEndian digits + 8256

/-- A range that comes first has smaller numbers. -/
theorem Holds.lt {c d : Class} {x y : Int} (holds : c.Holds x) (holdsOther : d.Holds y)
    (before : c.rank < d.rank) : x < y := by
  cases c <;> cases d <;>
    simp only [Holds, rank, mediumMin, shortMin, shortMax, mediumMax] at holds holdsOther before <;>
    omega

/-- The lead bytes of a class. -/
theorem mark_of_ofLead? {first : UInt8} {c : Class} (known : ofLead? first = some c) :
    match c with
    | .longNegative => 0x10 ≤ first.toNat ∧ first.toNat < 0x20
    | .mediumNegative => 0x20 ≤ first.toNat ∧ first.toNat < 0x40
    | .shortNegative => 0x40 ≤ first.toNat ∧ first.toNat < 0x80
    | .short => 0x80 ≤ first.toNat ∧ first.toNat < 0xc0
    | .medium => 0xc0 ≤ first.toNat ∧ first.toNat < 0xe0
    | .long => 0xe0 ≤ first.toNat ∧ first.toNat < 0xf0 := by
  simp only [ofLead?] at known
  repeat' split at known
  all_goals cases known
  all_goals simp only; omega

theorem of_payloadLength?_longNegative {first : UInt8} {count : Nat}
    (due : payloadLength? first .longNegative = some count) :
    first.toNat < 0x18 ∧ 0x18 - first.toNat = count := by
  simp only [payloadLength?] at due
  split at due
  · exact ⟨‹_›, Option.some.inj due⟩
  · cases due

theorem of_payloadLength?_long {first : UInt8} {count : Nat}
    (due : payloadLength? first .long = some count) :
    first.toNat ≤ 0xe8 ∧ first.toNat - 0xe0 = count := by
  simp only [payloadLength?] at due
  split at due
  · exact ⟨‹_›, Option.some.inj due⟩
  · cases due

theorem mark_of_ofLead?_eq_none {first : UInt8} (unknown : ofLead? first = none) :
    first.toNat < 0x10 ∨ 0xf0 ≤ first.toNat := by
  simp only [ofLead?] at unknown
  repeat' split at unknown
  all_goals first | omega | cases unknown

end Class

/-- The numbers of an unsigned word. -/
def Unsigned (n : Int) : Prop := 0 ≤ n ∧ n < 0x10000000000000000

/-- The numbers of a signed word. -/
def Signed (n : Int) : Prop := -0x8000000000000000 ≤ n ∧ n < 0x8000000000000000

/-- Bytes that begin with a lead byte of this class. -/
def Declares (bytes : List UInt8) (c : Class) : Prop :=
  ∃ first ∈ bytes.head?, Class.ofLead? first = some c

/-- Bytes that begin with the lead byte of a class and all that it calls for, and the number that
these spell. It need not lie in the range of the class. -/
inductive Spells : List UInt8 → Class → Int → Prop where
  | complete {c : Class} (known : Class.ofLead? first = some c)
      (whole : c.payloadLength? first = some digits.length) :
      Spells (first :: (digits ++ rest)) c (c.number first digits)

/-- Bytes that end before all is there that their lead byte calls for. -/
inductive Cut : List UInt8 → Prop where
  | nothing : Cut []
  | short {c : Class} (known : Class.ofLead? first = some c)
      (due : c.payloadLength? first = some count) (lacks : rest.length < count) :
      Cut (first :: rest)

/-- Bytes that no integer begins with. -/
inductive Unknown : List UInt8 → Prop where
  | marker (unknown : Class.ofLead? first = none) : Unknown (first :: rest)
  | length {c : Class} (known : Class.ofLead? first = some c)
      (none : c.payloadLength? first = none) : Unknown (first :: rest)

/-- The number that bytes of the least negative class spell is out of its range, or out of that
of words. -/
def Strays (bytes : List UInt8) : Prop :=
  ∃ n, Spells bytes .longNegative n ∧ ¬(Class.longNegative.Holds n ∧ Signed n)

/-- The bytes are there and are at fault. -/
def Corrupt (answer : Except Error α) : Prop :=
  ∃ error, answer = .error error ∧ error.report.kind = .corrupt

theorem spells_or_cut_or_unknown (bytes : List UInt8) :
    (∃ c n, Spells bytes c n) ∨ Cut bytes ∨ Unknown bytes := by
  cases bytes with
  | nil => exact .inr (.inl .nothing)
  | cons first rest =>
    cases known : Class.ofLead? first with
    | none => exact .inr (.inr (.marker known))
    | some c =>
      cases due : c.payloadLength? first with
      | none => exact .inr (.inr (.length known due))
      | some count =>
        by_cases lacks : rest.length < count
        · exact .inr (.inl (.short known due lacks))
        · have whole : c.payloadLength? first = some (rest.take count).length := by
            rw [due, List.length_take, Nat.min_eq_left (Nat.le_of_not_lt lacks)]
          have spells : Spells (first :: (rest.take count ++ rest.drop count)) c _ :=
            .complete known whole
          rw [List.take_append_drop] at spells
          exact .inl ⟨c, _, spells⟩

namespace Spells
variable {bytes : List UInt8} {c : Class} {n : Int}

theorem declares (spells : Spells bytes c n) : Declares bytes c := by
  cases spells with
  | complete known _ => exact ⟨_, rfl, known⟩

/-- The lead byte settles how far the number reaches. -/
theorem unique (spells : Spells bytes c n) {d : Class} {m : Int} (other : Spells bytes d m) :
    c = d ∧ n = m := by
  cases spells with
  | @complete first digits rest _ known whole =>
    generalize same : first :: (digits ++ rest) = bytes at other
    cases other with
    | complete knownOther wholeOther =>
      obtain ⟨rfl, tails⟩ := List.cons.inj same
      cases known.symm.trans knownOther
      -- Both payloads have the length that the lead byte calls for, so they end at one place.
      have length := Option.some.inj (whole.symm.trans wholeOther)
      obtain ⟨rfl, _⟩ := List.append_inj tails length
      exact ⟨rfl, rfl⟩

/-- In every class but one the number lies in the range of the class. -/
theorem holds (spells : Spells bytes c n) (other : c ≠ .longNegative) : c.Holds n := by
  cases spells with
  | @complete first digits rest _ known whole =>
    have mark := Class.mark_of_ofLead? known
    have digit := fromBigEndian_lt digits
    cases c with
    | longNegative => exact absurd rfl other
    | shortNegative | short | long =>
      simp only [Class.Holds, Class.number, shortMin, shortMax, mediumMax] at mark ⊢
      omega
    | mediumNegative | medium =>
      have one : digits.length = 1 := (Option.some.inj whole).symm
      rw [one] at digit
      simp only [Class.Holds, Class.number, mediumMin, shortMin, shortMax, mediumMax,
        span] at mark digit ⊢
      omega

/-- The numbers of the least negative class are negative, if they are not cut to a word. -/
theorem negative (spells : Spells bytes .longNegative n) : -0x10000000000000000 ≤ n ∧ n < 0 := by
  cases spells with
  | @complete first digits rest _ known whole =>
    have digit := fromBigEndian_lt digits
    obtain ⟨lower, _⟩ := Class.mark_of_ofLead? known
    obtain ⟨_, length⟩ := Class.of_payloadLength?_longNegative whole
    have short : digits.length ≤ 8 := by omega
    have eight : span digits.length ≤ 0x10000000000000000 := span_mono short
    simp only [Class.number]
    omega

end Spells

/-- The lead byte of a class and just the bytes that it calls for. -/
structure Whole (c : Class) (first : UInt8) (digits : List UInt8) : Prop where
  known : Class.ofLead? first = some c
  length : c.payloadLength? first = some digits.length

/-- Such bytes stand between two places. -/
structure Passes (reader after : Reader) (c : Class) (first : UInt8) (digits : List UInt8) : Prop
    extends Whole c first digits where
  bytes : reader.rest = first :: (digits ++ after.rest)
  offset : after.offset = reader.offset + (1 + digits.length)

namespace Passes
variable {reader after : Reader} {c : Class} {first : UInt8} {digits : List UInt8}

theorem spells (passes : Passes reader after c first digits) :
    Spells reader.rest c (c.number first digits) := by
  rw [passes.bytes]
  exact .complete passes.known passes.length

/-- The places are those of a row of bytes. -/
theorem places (passes : Passes reader after c first digits) :
    reader = ⟨reader.offset, first :: (digits ++ after.rest)⟩ ∧
      after = ⟨reader.offset + 1 + digits.length, after.rest⟩ := by
  rw [Nat.add_assoc, ← passes.offset, ← passes.bytes]
  exact ⟨rfl, rfl⟩

end Passes

theorem Spells.passes {reader : Reader} {c : Class} {n : Int} (spells : Spells reader.rest c n) :
    ∃ after first digits, Passes reader after c first digits ∧ c.number first digits = n := by
  generalize same : reader.rest = bytes at spells
  cases spells with
  | @complete first digits rest _ known whole =>
    exact ⟨⟨_, rest⟩, first, digits, ⟨⟨known, whole⟩, same, rfl⟩, rfl⟩

/-- A number that is not negative is decoded, if it is a word. -/
theorem decodeNat_of_passes {reader after : Reader} {c : Class} {first : UInt8}
    {digits : List UInt8} (passes : Passes reader after c first digits)
    (positive : 0 ≤ c.number first digits) :
    (c.number first digits < 0x10000000000000000 ∧
        decodeNat reader = .ok ((c.number first digits).toNat, after)) ∨
      (0x10000000000000000 ≤ c.number first digits ∧
        decodeNat reader = .error (.wordOverflow reader.offset)) := by
  have range := passes.spells.holds
  have below := fun same : c = .longNegative => (same ▸ passes.spells).negative
  have mark := Class.mark_of_ofLead? passes.known
  have digit := fromBigEndian_lt digits
  have whole := passes.length
  obtain ⟨front, back⟩ := passes.places
  rw [front, back]
  generalize reader.offset = offset, after.rest = rest
  cases c with
  | longNegative => exact absurd (below rfl).2 (Int.not_lt.mpr positive)
  | mediumNegative | shortNegative =>
    have holds := range (by simp)
    simp only [Class.Holds, shortMin] at holds
    omega
  | short =>
    have none : digits = [] := List.length_eq_zero_iff.mp (Option.some.inj whole).symm
    have value : (Class.number first digits .short).toNat = first.toNat - 0x80 := by
      simp only [Class.number]
      omega
    refine .inl ⟨?_, ?_⟩
    · simp only [Class.number]
      omega
    · rw [decodeNat_short _ _ mark.1 mark.2, value, none]
      rfl
  | medium =>
    obtain ⟨low, rfl⟩ := List.length_eq_one_iff.mp (Option.some.inj whole).symm
    have small := low.toNat_lt
    have one : fromBigEndian [low] = low.toNat := by simp [fromBigEndian]
    have value : (Class.number first [low] .medium).toNat =
        64 + (first.toNat - 0xc0) * 256 + low.toNat := by
      simp only [Class.number, one] at mark ⊢
      omega
    refine .inl ⟨?_, ?_⟩
    · simp only [Class.number, one] at mark ⊢
      omega
    · rw [decodeNat_medium _ _ mark.1 mark.2, value]
      rfl
  | long =>
    obtain ⟨upper, length⟩ := Class.of_payloadLength?_long whole
    have value : (Class.number first digits .long).toNat = fromBigEndian digits + 8256 := by
      simp only [Class.number]
      omega
    have read := payload_append offset (offset + 1) digits rest
    rw [← length] at read
    rw [decodeNat_long _ _ mark.1 upper, value, ← length]
    by_cases word : fromBigEndian digits + 8256 < UInt64.size
    · refine .inl ⟨?_, checked_pair read (· + 8256 < UInt64.size) word _ (· + 8256)⟩
      simp only [Class.number]
      simp only [UInt64.size] at word
      omega
    · refine .inr ⟨?_, refused_pair read (· + 8256 < UInt64.size) word _ (· + 8256)⟩
      simp only [Class.number]
      simp only [UInt64.size] at word
      omega

theorem Corrupt.bind {answer : Except Error α} (corrupt : Corrupt answer)
    (next : α → Except Error β) : Corrupt (answer.bind next) := by
  obtain ⟨error, rfl, kind⟩ := corrupt
  exact ⟨error, rfl, kind⟩

theorem Starved.failed {answer : Except Error α} (starved : Starved answer) :
    ∃ error, answer = .error error := by
  obtain ⟨lack, same⟩ := starved
  exact ⟨.truncated lack, same⟩

/-- A lead byte that names no class of unsigned integers. -/
theorem decodeNat_corrupt {first : UInt8} (offset : Nat) (rest : List UInt8)
    (other : first.toNat < 0x80 ∨ 0xf0 ≤ first.toNat) :
    Corrupt (decodeNat ⟨offset, first :: rest⟩) := by
  refine ⟨.notUnsigned offset first, ?_, rfl⟩
  change (if first.toNat < 0x80 then _ else if first.toNat < 0xc0 then _
    else if first.toNat < 0xe0 then _ else if first.toNat < 0xf0 then _ else _) = _
  rcases other with low | high
  · rw [if_pos low]
  · rw [if_neg (by omega), if_neg (by omega), if_neg (by omega), if_neg (by omega)]

theorem decodeNat_of_negative {bytes : List UInt8} {c : Class} {n : Int}
    (spells : Spells bytes c n) (negative : n < 0) (offset : Nat) :
    Corrupt (decodeNat ⟨offset, bytes⟩) := by
  have range := spells.holds
  cases spells with
  | @complete first digits rest _ known whole =>
    have mark := Class.mark_of_ofLead? known
    cases c with
    | longNegative | mediumNegative | shortNegative =>
      exact decodeNat_corrupt offset _ (.inl (by simp only at mark; omega))
    | short | medium | long =>
      have holds := range (by simp)
      simp only [Class.Holds, shortMax, mediumMax] at holds
      omega

theorem decodeNat_of_unknown {bytes : List UInt8} (unknown : Unknown bytes) (offset : Nat) :
    Corrupt (decodeNat ⟨offset, bytes⟩) := by
  cases unknown with
  | marker unknown =>
    have mark := Class.mark_of_ofLead?_eq_none unknown
    exact decodeNat_corrupt offset _ (by omega)
  | @length first rest c known none =>
    have mark := Class.mark_of_ofLead? known
    cases c with
    | mediumNegative | shortNegative | short | medium => cases none
    | longNegative => exact decodeNat_corrupt offset _ (.inl (by simp only at mark; omega))
    | long =>
      have large : ¬first.toNat ≤ 0xe8 := by
        intro small
        simp [Class.payloadLength?, small] at none
      refine ⟨.payloadTooLong offset (first.toNat - 0xe0), ?_, rfl⟩
      change (if first.toNat < 0x80 then _ else if first.toNat < 0xc0 then _
        else if first.toNat < 0xe0 then _ else if first.toNat < 0xf0 then
          if 8 < first.toNat - 0xe0 then _ else _ else _) = _
      simp only at mark
      rw [if_neg (by omega), if_neg (by omega), if_neg (by omega), if_pos (by omega),
        if_pos (by omega)]

theorem decodeNat_of_cut {bytes : List UInt8} (cut : Cut bytes) (offset : Nat) :
    ∃ error, decodeNat ⟨offset, bytes⟩ = .error error := by
  cases cut with
  | nothing => exact ⟨_, rfl⟩
  | @short first count rest c known due lacks =>
    have mark := Class.mark_of_ofLead? known
    cases c with
    | longNegative | mediumNegative | shortNegative =>
      have low : first.toNat < 0x80 := by
        simp only at mark
        omega
      obtain ⟨error, same, _⟩ := decodeNat_corrupt offset rest (.inl low)
      exact ⟨error, same⟩
    | short =>
      cases due
      exact absurd lacks (Nat.not_lt_zero _)
    | medium =>
      cases due
      rw [decodeNat_medium _ _ mark.1 mark.2]
      exact ((lead_starved _ lacks).map _).failed
    | long =>
      obtain ⟨upper, same⟩ := Class.of_payloadLength?_long due
      rw [← same] at lacks
      rw [decodeNat_long _ _ mark.1 upper]
      exact ((payload_starved _ _ lacks).bind _).failed

/-- An unsigned integer that is decoded is the number that the bytes up to the next place
spell. -/
theorem passes_of_decodeNat {reader after : Reader} {m : Nat}
    (read : decodeNat reader = .ok (m, after)) :
    ∃ c first digits, Passes reader after c first digits ∧ c.number first digits = m ∧
      (m : Int) < 0x10000000000000000 := by
  rcases spells_or_cut_or_unknown reader.rest with ⟨c, n, spells⟩ | cut | unknown
  · by_cases positive : 0 ≤ n
    · obtain ⟨next, first, digits, passes, rfl⟩ := spells.passes
      rcases decodeNat_of_passes passes positive with ⟨word, found⟩ | ⟨_, failed⟩
      · cases found.symm.trans read
        rw [Int.toNat_of_nonneg positive]
        exact ⟨c, first, digits, passes, rfl, word⟩
      · cases failed.symm.trans read
    · obtain ⟨_, failed, _⟩ := decodeNat_of_negative spells (Int.not_le.mp positive) reader.offset
      cases failed.symm.trans read
  · obtain ⟨_, failed⟩ := decodeNat_of_cut cut reader.offset
    cases failed.symm.trans read
  · obtain ⟨_, failed, _⟩ := decodeNat_of_unknown unknown reader.offset
    cases failed.symm.trans read

/-- What is not negative is decoded as if unsigned, if it is not too large for a signed word. -/
theorem decodeSigned_of_positive {reader after : Reader} {c : Class} {first : UInt8}
    {digits : List UInt8} (passes : Passes reader after c first digits)
    (lower : 0x80 ≤ first.toNat) (positive : 0 ≤ c.number first digits) :
    (c.number first digits < 0x8000000000000000 ∧
        decodeSigned reader = .ok (Int64.ofInt (c.number first digits), after)) ∨
      (0x8000000000000000 ≤ c.number first digits ∧ Corrupt (decodeSigned reader)) := by
  have unsigned := decodeSigned_positive reader.offset (digits ++ after.rest) lower
  rw [← passes.places.1] at unsigned
  rw [unsigned]
  rcases decodeNat_of_passes passes positive with ⟨_, read⟩ | ⟨large, refused⟩
  · by_cases word : (c.number first digits).toNat < UInt64.size / 2
    · have found := checked_pair read (· < UInt64.size / 2) word (.beyondSigned reader.offset)
        (Int64.ofInt ·)
      rw [Int.toNat_of_nonneg positive] at found
      simp only [UInt64.size] at word
      exact .inl ⟨by omega, found⟩
    · have failed := refused_pair read (· < UInt64.size / 2) word (.beyondSigned reader.offset)
        (Int64.ofInt ·)
      simp only [UInt64.size] at word
      exact .inr ⟨by omega, .beyondSigned reader.offset, failed, rfl⟩
  · rw [refused]
    exact .inr ⟨by omega, .wordOverflow reader.offset, rfl, rfl⟩

/-- The number that the bytes spell is decoded, if it is not too large for a signed word. -/
theorem decodeSigned_of_passes {reader after : Reader} {c : Class} {first : UInt8}
    {digits : List UInt8} (passes : Passes reader after c first digits) :
    (c.number first digits < 0x8000000000000000 ∧
        decodeSigned reader = .ok (Int64.ofInt (c.number first digits), after)) ∨
      (0x8000000000000000 ≤ c.number first digits ∧ Corrupt (decodeSigned reader)) := by
  have range := passes.spells.holds
  have below := fun same : c = .longNegative => (same ▸ passes.spells).negative
  have mark := Class.mark_of_ofLead? passes.known
  have whole := passes.length
  obtain ⟨front, back⟩ := passes.places
  cases c with
  | longNegative =>
    have negative := (below rfl).2
    obtain ⟨upper, length⟩ := Class.of_payloadLength?_longNegative whole
    have read := payload_append reader.offset (reader.offset + 1) digits after.rest
    rw [← back, ← length] at read
    refine .inl ⟨by omega, ?_⟩
    rw [front, decodeSigned_long _ _ mark.1 upper, read, Class.number, ← length]
    rfl
  | mediumNegative =>
    have holds := range (by simp)
    obtain ⟨low, rfl⟩ := List.length_eq_one_iff.mp (Option.some.inj whole).symm
    have one : fromBigEndian [low] = low.toNat := by simp [fromBigEndian]
    refine .inl ⟨?_, ?_⟩
    · simp only [Class.Holds, shortMin] at holds
      omega
    · rw [front, back, decodeSigned_medium _ _ mark.1 mark.2, Class.number, one]
      rfl
  | shortNegative =>
    have holds := range (by simp)
    have none : digits = [] := List.length_eq_zero_iff.mp (Option.some.inj whole).symm
    refine .inl ⟨?_, ?_⟩
    · simp only [Class.Holds] at holds
      omega
    · rw [front, back, decodeSigned_short _ _ mark.1 mark.2, Class.number, none]
      rfl
  | short | medium | long =>
    have holds := range (by simp)
    have lower : 0x80 ≤ first.toNat := by
      simp only at mark
      omega
    refine decodeSigned_of_positive passes lower ?_
    simp only [Class.Holds, shortMax, mediumMax] at holds
    omega

theorem decodeSigned_of_unknown {bytes : List UInt8} (unknown : Unknown bytes) (offset : Nat) :
    Corrupt (decodeSigned ⟨offset, bytes⟩) := by
  have unsigned := decodeNat_of_unknown unknown offset
  cases unknown with
  | marker unknown =>
    have mark := Class.mark_of_ofLead?_eq_none unknown
    rw [decodeSigned_other _ _ (by omega)]
    exact unsigned.bind _
  | @length first rest c known none =>
    have mark := Class.mark_of_ofLead? known
    cases c with
    | mediumNegative | shortNegative | short | medium => cases none
    | longNegative =>
      have large : ¬first.toNat < 0x18 := by
        intro small
        simp [Class.payloadLength?, small] at none
      refine ⟨.tooManyDropped offset (first.toNat - 0x10), ?_, rfl⟩
      change (if 0x10 ≤ first.toNat ∧ first.toNat < 0x20 then
        if 8 ≤ first.toNat - 0x10 then _ else _ else _) = _
      rw [if_pos mark, if_pos (by omega)]
    | long =>
      rw [decodeSigned_positive _ _ (by simp only at mark; omega)]
      exact unsigned.bind _

theorem decodeSigned_of_cut {bytes : List UInt8} (cut : Cut bytes) (offset : Nat) :
    ∃ error, decodeSigned ⟨offset, bytes⟩ = .error error := by
  have unsigned := decodeNat_of_cut cut offset
  cases cut with
  | nothing => exact ⟨_, rfl⟩
  | @short first count rest c known due lacks =>
    have mark := Class.mark_of_ofLead? known
    cases c with
    | longNegative =>
      obtain ⟨upper, same⟩ := Class.of_payloadLength?_longNegative due
      rw [← same] at lacks
      rw [decodeSigned_long _ _ mark.1 upper]
      exact ((payload_starved _ _ lacks).map _).failed
    | mediumNegative =>
      cases due
      rw [decodeSigned_medium _ _ mark.1 mark.2]
      exact ((lead_starved _ lacks).map _).failed
    | shortNegative | short =>
      cases due
      exact absurd lacks (Nat.not_lt_zero _)
    | medium | long =>
      obtain ⟨error, failed⟩ := unsigned
      rw [decodeSigned_positive _ _ (by simp only at mark; omega), failed]
      exact ⟨error, rfl⟩

/-- A signed integer that is decoded is the number that the bytes up to the next place spell, as
far as a word holds it. -/
theorem passes_of_decodeSigned {reader after : Reader} {x : Int64}
    (read : decodeSigned reader = .ok (x, after)) :
    ∃ c first digits, Passes reader after c first digits ∧
      c.number first digits < 0x8000000000000000 ∧ x = Int64.ofInt (c.number first digits) := by
  rcases spells_or_cut_or_unknown reader.rest with ⟨c, n, spells⟩ | cut | unknown
  · obtain ⟨next, first, digits, passes, rfl⟩ := spells.passes
    rcases decodeSigned_of_passes passes with ⟨word, found⟩ | ⟨_, _, failed, _⟩
    · cases found.symm.trans read
      exact ⟨c, first, digits, passes, word, rfl⟩
    · cases failed.symm.trans read
  · obtain ⟨_, failed⟩ := decodeSigned_of_cut cut reader.offset
    cases failed.symm.trans read
  · obtain ⟨_, failed, _⟩ := decodeSigned_of_unknown unknown reader.offset
    cases failed.symm.trans read

/-- An unsigned word that is decoded is the number that the bytes up to the next place spell. -/
theorem passes_of_decodeUnsigned {reader after : Reader} {x : UInt64}
    (read : decodeUnsigned reader = .ok (x, after)) :
    ∃ c first digits, Passes reader after c first digits ∧ c.number first digits = x.toNat := by
  rw [decodeUnsigned] at read
  cases found : decodeNat reader with
  | error error =>
    rw [found] at read
    cases read
  | ok pair =>
    obtain ⟨m, left⟩ := pair
    rw [found] at read
    cases read
    obtain ⟨c, first, digits, passes, number, word⟩ := passes_of_decodeNat found
    have whole : (UInt64.ofNat m).toNat = m :=
      UInt64.toNat_ofNat_of_lt' (by simp only [UInt64.size]; omega)
    exact ⟨c, first, digits, passes, by rw [whole, number]⟩

theorem Declares.unique {bytes : List UInt8} {c d : Class} (one : Declares bytes c)
    (other : Declares bytes d) : c = d := by
  obtain ⟨first, head, known⟩ := one
  obtain ⟨_, again, knownOther⟩ := other
  cases Option.mem_unique head again
  exact Option.some.inj (known.symm.trans knownOther)

theorem holds_of_decodeUnsigned {reader after : Reader} {x : UInt64}
    (read : decodeUnsigned reader = .ok (x, after)) :
    ∃ c, Declares reader.rest c ∧ c.Holds x.toNat := by
  obtain ⟨c, first, digits, passes, number⟩ := passes_of_decodeUnsigned read
  refine ⟨c, passes.spells.declares, ?_⟩
  rw [← number]
  apply passes.spells.holds
  rintro rfl
  have negative := passes.spells.negative.2
  omega

/-- What a word makes of a number that is too small for it is not negative. -/
theorem toInt_of_wrapped {n : Int} (lower : -0x10000000000000000 ≤ n)
    (small : n < -0x8000000000000000) : 0 ≤ (Int64.ofInt n).toInt := by
  have size : (Int64.size : Int) = 18446744073709551616 := rfl
  rw [Int64.toInt_ofInt, Int.bmod_def, size]
  split <;> omega

/-- Bytes that do not stray spell a number in the range of their class and above the least
word. -/
theorem Spells.fits {bytes : List UInt8} {c : Class} {n : Int} (spells : Spells bytes c n)
    (kept : ¬Strays bytes) : c.Holds n ∧ -0x8000000000000000 ≤ n := by
  by_cases least : c = .longNegative
  · subst least
    have inside : n < mediumMin ∧ Signed n :=
      Classical.byContradiction fun out => kept ⟨n, spells, out⟩
    exact ⟨inside.1, inside.2.1⟩
  · have holds := spells.holds least
    refine ⟨holds, ?_⟩
    cases c <;> simp only [Class.Holds, mediumMin, shortMin, shortMax, mediumMax] at holds
    · exact absurd rfl least
    all_goals omega

theorem holds_iff_of_spells {bytes : List UInt8} {c : Class} {n : Int} (spells : Spells bytes c n)
    (small : n < 0x8000000000000000) : c.Holds (Int64.ofInt n).toInt ↔ ¬Strays bytes := by
  constructor
  · rintro holds ⟨m, again, out⟩
    obtain ⟨rfl, rfl⟩ := spells.unique again
    apply out
    by_cases word : -0x8000000000000000 ≤ n
    · rw [Int64.toInt_ofInt_of_le word small] at holds
      exact ⟨holds, word, small⟩
    · have wrapped := toInt_of_wrapped spells.negative.1 (Int.not_le.mp word)
      simp only [Class.Holds, mediumMin] at holds
      omega
  · intro kept
    obtain ⟨holds, word⟩ := spells.fits kept
    rwa [Int64.toInt_ofInt_of_le word small]

/-- An integer that is found at an offset. A signed one is left out if its bytes stray. -/
inductive Decoded (buffer : List UInt8) (cursor : Nat) : Int → Prop where
  | unsigned {x : UInt64} (read : decodeUnsigned (Reader.ofBuffer buffer cursor) = .ok (x, after)) :
      Decoded buffer cursor x.toNat
  | signed {x : Int64} (read : decodeSigned (Reader.ofBuffer buffer cursor) = .ok (x, after))
      (kept : ¬Strays (buffer.drop cursor)) : Decoded buffer cursor x.toInt

theorem Decoded.holds {buffer : List UInt8} {cursor : Nat} {n : Int}
    (decoded : Decoded buffer cursor n) :
    ∃ c, Declares (buffer.drop cursor) c ∧ c.Holds n := by
  cases decoded with
  | unsigned read => exact holds_of_decodeUnsigned read
  | signed read kept =>
    obtain ⟨c, first, digits, passes, small, rfl⟩ := passes_of_decodeSigned read
    exact ⟨c, passes.spells.declares, (holds_iff_of_spells passes.spells small).mpr kept⟩

/-- Complete bytes that spell no unsigned word in the range of their class are at fault. -/
theorem decodeUnsigned_corrupt {reader : Reader} (complete : ¬Cut reader.rest)
    (unfit : ∀ c n, Spells reader.rest c n → ¬(c.Holds n ∧ Unsigned n)) :
    Corrupt (decodeUnsigned reader) := by
  have corrupt : Corrupt (decodeNat reader) := by
    rcases spells_or_cut_or_unknown reader.rest with ⟨c, n, spells⟩ | cut | unknown
    · by_cases positive : 0 ≤ n
      · have holds : c.Holds n := by
          apply spells.holds
          rintro rfl
          exact absurd spells.negative.2 (Int.not_lt.mpr positive)
        obtain ⟨_, _, _, passes, rfl⟩ := spells.passes
        rcases decodeNat_of_passes passes positive with ⟨word, _⟩ | ⟨_, failed⟩
        · exact absurd ⟨holds, positive, word⟩ (unfit c _ spells)
        · exact ⟨_, failed, rfl⟩
      · exact decodeNat_of_negative spells (Int.not_le.mp positive) reader.offset
    · exact absurd cut complete
    · exact decodeNat_of_unknown unknown reader.offset
  exact corrupt.bind _

/-- Complete bytes that spell no signed word in the range of their class are at fault, unless they
stray. -/
theorem decodeSigned_corrupt {reader : Reader} (complete : ¬Cut reader.rest)
    (unfit : ∀ c n, Spells reader.rest c n → ¬(c.Holds n ∧ Signed n))
    (kept : ¬Strays reader.rest) : Corrupt (decodeSigned reader) := by
  rcases spells_or_cut_or_unknown reader.rest with ⟨c, n, spells⟩ | cut | unknown
  · obtain ⟨_, _, _, passes, rfl⟩ := spells.passes
    rcases decodeSigned_of_passes passes with ⟨small, _⟩ | ⟨_, corrupt⟩
    · obtain ⟨holds, word⟩ := spells.fits kept
      exact absurd ⟨holds, word, small⟩ (unfit c _ spells)
    · exact corrupt
  · exact absurd cut complete
  · exact decodeSigned_of_unknown unknown reader.offset

/-- Bytes that stray are decoded all the same, to what is not in the range of their class. -/
theorem decodeSigned_of_strays {reader : Reader} (strays : Strays reader.rest) :
    ∃ x after, decodeSigned reader = .ok (x, after) ∧ ¬Class.longNegative.Holds x.toInt := by
  obtain ⟨n, spells, out⟩ := strays
  obtain ⟨after, first, digits, passes, rfl⟩ := spells.passes
  rcases decodeSigned_of_passes passes with ⟨small, read⟩ | ⟨large, _⟩
  · refine ⟨_, after, read, ?_⟩
    intro holds
    exact (holds_iff_of_spells spells small).mp holds ⟨_, spells, out⟩
  · have negative := spells.negative.2
    omega

/-- An unsigned integer lies in the range of the class that its lead byte names, and so does a
signed one unless its bytes stray. The classes of two such integers that differ are in the
order of the integers. Complete bytes are at fault if they spell no word in the range of their
class, but not those that stray, which are decoded to an integer out of this range. -/
theorem decoded_in_declared_range (buffer : List UInt8) (cursor : Nat) :
    (∀ x after, decodeUnsigned (Reader.ofBuffer buffer cursor) = .ok (x, after) →
      ∃ c, Declares (buffer.drop cursor) c ∧ c.Holds x.toNat) ∧
    (∀ x after, decodeSigned (Reader.ofBuffer buffer cursor) = .ok (x, after) →
      ∃ c, Declares (buffer.drop cursor) c ∧
        (c.Holds x.toInt ↔ ¬Strays (buffer.drop cursor))) ∧
    (∀ other place m n c d, Decoded buffer cursor m → Decoded other place n →
      Declares (buffer.drop cursor) c → Declares (other.drop place) d → c.rank < d.rank →
      m < n) ∧
    (¬Cut (buffer.drop cursor) →
      ((∀ c n, Spells (buffer.drop cursor) c n → ¬(c.Holds n ∧ Unsigned n)) →
        Corrupt (decodeUnsigned (Reader.ofBuffer buffer cursor))) ∧
      ((∀ c n, Spells (buffer.drop cursor) c n → ¬(c.Holds n ∧ Signed n)) →
        ¬Strays (buffer.drop cursor) →
        Corrupt (decodeSigned (Reader.ofBuffer buffer cursor)))) ∧
    (Strays (buffer.drop cursor) →
      ∃ x after, decodeSigned (Reader.ofBuffer buffer cursor) = .ok (x, after) ∧
        ¬Class.longNegative.Holds x.toInt) := by
  refine ⟨?_, ?_, ?_, ?_, ?_⟩
  · intro x after read
    exact holds_of_decodeUnsigned read
  · intro x after read
    obtain ⟨c, first, digits, passes, small, rfl⟩ := passes_of_decodeSigned read
    exact ⟨c, passes.spells.declares, holds_iff_of_spells passes.spells small⟩
  · intro other place m n c d decoded following declares declaresOther before
    obtain ⟨_, named, holds⟩ := decoded.holds
    obtain ⟨_, namedOther, holdsOther⟩ := following.holds
    cases named.unique declares
    cases namedOther.unique declaresOther
    exact holds.lt holdsOther before
  · intro complete
    exact ⟨fun unfit => decodeUnsigned_corrupt complete unfit,
      fun unfit kept => decodeSigned_corrupt complete unfit kept⟩
  · intro strays
    exact decodeSigned_of_strays strays

/-- A whole word behind the lead byte of negative numbers, whose first bit is clear. -/
theorem negative_marker_reads_one :
    decodeSigned (Reader.ofBuffer [0x10, 0, 0, 0, 0, 0, 0, 0, 1] 0) = .ok (1, ⟨9, []⟩) ∧
    Declares [0x10, 0, 0, 0, 0, 0, 0, 0, 1] .longNegative ∧
    ¬Class.longNegative.Holds (1 : Int64).toInt := by
  refine ⟨by with_unfolding_all rfl, ⟨0x10, rfl, rfl⟩, ?_⟩
  simp [Class.Holds, mediumMin]

end OrderPack.Varint
