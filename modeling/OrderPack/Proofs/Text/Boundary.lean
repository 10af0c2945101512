import Mathlib.Data.Nat.Find
import OrderPack.Proofs.Text.Utf8

/-! Where the bytes of a text can be cut. A cut that would fall within a character is moved back
byte by byte, until it falls between two. It comes to stand behind the longest run of whole
characters that were before it, and at the beginning at the latest. -/
namespace OrderPack.Text

/-- A byte that is not the first of its character. -/
def continues (byte : UInt8) : Bool := 0x80 ≤ byte && byte < 0xc0

/-- No character of the text has bytes on both sides. -/
def isBoundary (bytes : List UInt8) (cut : Nat) : Bool :=
  cut == 0 ||
    match bytes[cut]? with
    | some byte => !continues byte
    | none => cut == bytes.length

/-- Moves a cut back to the next boundary. It cannot be moved back from the beginning. -/
def floorBoundary? (bytes : List UInt8) : (cut : Nat) → Option Nat
  | 0 => if isBoundary bytes 0 then some 0 else none
  | cut + 1 =>
    if isBoundary bytes (cut + 1) then some (cut + 1) else floorBoundary? bytes cut

theorem continues_ofNat (small : n < 256) :
    continues (UInt8.ofNat n) = (decide (0x80 ≤ n) && decide (n < 0xc0)) := by
  have byte : (UInt8.ofNat n).toNat = n := UInt8.toNat_ofNat_of_lt' small
  simp only [continues, UInt8.le_iff_toNat_le, UInt8.lt_iff_toNat_lt, byte]
  rfl

/-- Six bits behind the mark of a byte that is not the first. -/
theorem continues_marked (n : Nat) : continues (UInt8.ofNat (n % 64 + 128)) = true := by
  rw [continues_ofNat (by omega), Bool.and_eq_true, decide_eq_true_eq, decide_eq_true_eq]
  omega

/-- Just the first byte of a character begins it. -/
theorem encode_shape (c : Char) :
    ∃ first others, String.utf8EncodeChar c = first :: others ∧ continues first = false ∧
      ∀ byte ∈ others, continues byte = true := by
  have point : c.val.toNat < 1114112 := by
    rcases c.valid with small | ⟨_, small⟩
    · exact Nat.lt_trans small (by decide)
    · exact small
  unfold String.utf8EncodeChar
  simp only
  repeat' split
  all_goals
    refine ⟨_, _, rfl, ?_, by simp only [List.mem_cons, List.not_mem_nil, or_false,
      forall_eq_or_imp, forall_eq, continues_marked, and_self, false_imp_iff, implies_true]⟩
    rw [continues_ofNat (by omega), Bool.and_eq_false_iff, decide_eq_false_iff_not,
      decide_eq_false_iff_not]
    omega

theorem isBoundary_zero (bytes : List UInt8) : isBoundary bytes 0 = true := rfl

/-- Within the bytes of a character there is no boundary. -/
theorem isBoundary_within (c : Char) (rest : List Char)
    (within : cut + 1 < (String.utf8EncodeChar c).length) :
    isBoundary (utf8 (c :: rest)) (cut + 1) = false := by
  obtain ⟨first, others, shape, _, later⟩ := encode_shape c
  rw [shape, List.length_cons] at within
  have here : (utf8 (c :: rest))[cut + 1]? = others[cut]? := by
    rw [utf8_cons, shape, List.cons_append, List.getElem?_cons_succ,
      List.getElem?_append_left (by omega)]
  have byte := List.getElem?_eq_getElem (show cut < others.length by omega)
  rw [isBoundary, here, byte]
  simp [later _ (List.getElem_mem _)]

/-- Behind the bytes of a character is a boundary, and farther on the boundaries are those of the
other characters. -/
theorem isBoundary_add (c : Char) (rest : List Char) (cut : Nat) :
    isBoundary (utf8 (c :: rest)) ((String.utf8EncodeChar c).length + cut) =
      isBoundary (utf8 rest) cut := by
  have positive : 0 < (String.utf8EncodeChar c).length :=
    List.length_pos_iff.mpr String.utf8EncodeChar_ne_nil
  generalize front : String.utf8EncodeChar c = encoded at positive
  have later : (encoded.length + cut == 0) = false := beq_false_of_ne (by omega)
  have ends : (encoded.length + cut == encoded.length + (utf8 rest).length) =
      (cut == (utf8 rest).length) := by
    rw [Bool.eq_iff_iff, beq_iff_eq, beq_iff_eq, Nat.add_left_cancel_iff]
  rw [isBoundary, isBoundary, utf8_cons, front, List.getElem?_append_right (Nat.le_add_right ..),
    Nat.add_sub_cancel_left, List.length_append, later, ends, Bool.false_or]
  cases cut with
  | succ cut => rfl
  | zero =>
    cases rest with
    | nil => rfl
    | cons d rest =>
      obtain ⟨first, others, shape, begins, _⟩ := encode_shape d
      simp [shape, begins]

/-- A cut is at a boundary just if whole characters stand before it. -/
theorem isBoundary_iff (chars : List Char) (cut : Nat) :
    isBoundary (utf8 chars) cut = true ↔
      ∃ front, front <+: chars ∧ (utf8 front).length = cut := by
  induction chars generalizing cut with
  | nil =>
    constructor
    · intro boundary
      cases cut with
      | zero => exact ⟨[], List.prefix_rfl, rfl⟩
      | succ cut => cases boundary
    · rintro ⟨front, leading, rfl⟩
      rw [List.prefix_nil.mp leading]
      rfl
  | cons c rest ih =>
    constructor
    · intro boundary
      by_cases beginning : cut = 0
      · exact ⟨[], List.nil_prefix, beginning.symm⟩
      have behind : (String.utf8EncodeChar c).length ≤ cut := by
        apply Nat.le_of_not_lt
        intro within
        obtain ⟨cut, rfl⟩ := Nat.exists_eq_succ_of_ne_zero beginning
        rw [isBoundary_within c rest within] at boundary
        cases boundary
      obtain ⟨more, rfl⟩ := Nat.exists_eq_add_of_le behind
      rw [isBoundary_add] at boundary
      obtain ⟨front, leading, rfl⟩ := (ih more).mp boundary
      refine ⟨c :: front, List.cons_prefix_cons.mpr ⟨rfl, leading⟩, ?_⟩
      rw [utf8_cons, List.length_append]
    · rintro ⟨front, leading, rfl⟩
      cases front with
      | nil => exact isBoundary_zero _
      | cons d front =>
        obtain ⟨rfl, others⟩ := List.cons_prefix_cons.mp leading
        rw [utf8_cons d front, List.length_append, isBoundary_add]
        exact (ih _).mpr ⟨front, others, rfl⟩

/-- The search ends at the last boundary that is not behind the cut. -/
theorem floorBoundary?_eq_findGreatest (bytes : List UInt8) (cut : Nat) :
    floorBoundary? bytes cut = some (Nat.findGreatest (isBoundary bytes · = true) cut) := by
  induction cut with
  | zero => rw [floorBoundary?, isBoundary_zero, if_pos rfl, Nat.findGreatest_zero]
  | succ cut ih =>
    rw [floorBoundary?, Nat.findGreatest_succ, ih]
    split <;> rfl

/-- A cut that is moved back leaves the longest run of whole characters that fits. -/
theorem floorBoundary?_eq (fitting : LongestFitting width chars kept) :
    floorBoundary? (utf8 chars) (min (utf8 chars).length width) = some (utf8 kept).length := by
  rw [floorBoundary?_eq_findGreatest, Option.some.injEq, Nat.findGreatest_eq_iff]
  refine ⟨?_, ?_, ?_⟩
  · exact Nat.le_min.mpr ⟨length_utf8_le fitting.leading, fitting.fits⟩
  · intro _
    exact (isBoundary_iff chars _).mpr ⟨kept, fitting.leading, rfl⟩
  · intro cut farther near boundary
    obtain ⟨front, leading, rfl⟩ := (isBoundary_iff chars cut).mp boundary
    have within := fitting.longest front leading (Nat.le_trans near (Nat.min_le_right ..))
    exact absurd farther (Nat.not_lt.mpr (length_utf8_le within))

end OrderPack.Text
