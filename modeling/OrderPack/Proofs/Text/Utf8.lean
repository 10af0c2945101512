import OrderPack.Text.Utf8

/-! What cutting a text does to its bytes. A fixed width keeps the longest run of whole
characters that fits; the first NUL byte is where the first NUL character stands, since
no other character has a zero among its bytes; and whole characters read back. -/
namespace OrderPack.Text

@[simp] theorem utf8_cons (c : Char) (chars : List Char) :
    utf8 (c :: chars) = String.utf8EncodeChar c ++ utf8 chars := List.flatMap_cons ..

theorem utf8_append (front back : List Char) : utf8 (front ++ back) = utf8 front ++ utf8 back :=
  List.flatMap_append

theorem length_utf8_le (leading : front <+: chars) : (utf8 front).length ≤ (utf8 chars).length := by
  obtain ⟨rest, rfl⟩ := leading
  rw [utf8_append, List.length_append]
  exact Nat.le_add_right ..

/-- What is kept of a text in a width: leading characters that fit, and no more would. -/
structure LongestFitting (width : Nat) (chars kept : List Char) : Prop where
  leading : kept <+: chars
  fits : (utf8 kept).length ≤ width
  longest : ∀ other, other <+: chars → (utf8 other).length ≤ width → other <+: kept

theorem takeFitting_longestFitting (width : Nat) (chars : List Char) :
    LongestFitting width chars (takeFitting width chars) := by
  induction chars generalizing width with
  | nil => exact ⟨List.prefix_rfl, Nat.zero_le _, fun _ leading _ => leading⟩
  | cons c rest ih =>
    rw [takeFitting]
    by_cases room : (String.utf8EncodeChar c).length ≤ width
    · obtain ⟨leading, fits, longest⟩ := ih (width - (String.utf8EncodeChar c).length)
      rw [if_pos room]
      refine ⟨List.cons_prefix_cons.mpr ⟨rfl, leading⟩, ?_, ?_⟩
      · rw [utf8_cons, List.length_append]
        omega
      · intro other starts small
        cases other with
        | nil => exact List.nil_prefix
        | cons d other =>
          obtain ⟨rfl, later⟩ := List.cons_prefix_cons.mp starts
          rw [utf8_cons, List.length_append] at small
          exact List.cons_prefix_cons.mpr ⟨rfl, longest other later (by omega)⟩
    · rw [if_neg room]
      refine ⟨List.nil_prefix, Nat.zero_le _, ?_⟩
      intro other starts small
      cases other with
      | nil => exact List.nil_prefix
      | cons d other =>
        obtain ⟨rfl, _⟩ := List.cons_prefix_cons.mp starts
        rw [utf8_cons, List.length_append] at small
        exact absurd (Nat.le_trans (Nat.le_add_right ..) small) room

/-- Only one row of characters is what a width keeps of a text. -/
theorem LongestFitting.unique (first : LongestFitting width chars kept)
    (second : LongestFitting width chars other) : kept = other :=
  (second.longest kept first.leading first.fits).eq_of_length_le
    (first.longest other second.leading second.fits).length_le

/-- The room left over is less than the next character takes. -/
theorem LongestFitting.left_over (fitting : LongestFitting width (kept ++ c :: rest) kept) :
    width < (utf8 kept).length + c.utf8Size := by
  apply Nat.lt_of_not_le
  intro room
  have leading : kept ++ [c] <+: kept ++ c :: rest :=
    (List.prefix_append_right_inj kept).mpr (List.cons_prefix_cons.mpr ⟨rfl, List.nil_prefix⟩)
  have size : (utf8 (kept ++ [c])).length = (utf8 kept).length + c.utf8Size := by
    rw [utf8_append, List.length_append, utf8_cons, List.length_append,
      String.length_utf8EncodeChar]
    rfl
  have longer := (fitting.longest (kept ++ [c]) leading (size ▸ room)).length_le
  rw [List.length_append] at longer
  exact absurd longer (Nat.not_succ_le_self kept.length)

/-- A text that fits is kept whole. -/
theorem LongestFitting.whole (fits : (utf8 chars).length ≤ width) :
    LongestFitting width chars chars :=
  ⟨List.prefix_rfl, fits, fun _ leading _ => leading⟩

theorem takeFitting_eq_self (fits : (utf8 chars).length ≤ width) :
    takeFitting width chars = chars :=
  (takeFitting_longestFitting width chars).unique (.whole fits)

/-- The bytes of NUL are one zero, and every other character does without. -/
theorem zero_not_mem_encode (other : c ≠ '\x00') : 0 ∉ String.utf8EncodeChar c := by
  have positive : c.val.toNat ≠ 0 := by
    intro zero
    exact other (Char.ext (UInt32.toNat_inj.mp zero))
  have point : c.val.toNat < 1114112 := by
    rcases c.valid with small | ⟨_, small⟩
    · exact Nat.lt_trans small (by decide)
    · exact small
  have byte : ∀ n : Nat, 0 < n → n < 256 → (0 : UInt8) ≠ UInt8.ofNat n := by
    intro n low high same
    have zero := congrArg UInt8.toNat same
    rw [UInt8.toNat_ofNat_of_lt' high] at zero
    exact absurd zero.symm (Nat.ne_of_gt low)
  -- Apart from the one-byte form, the upper bits of every byte are set already.
  unfold String.utf8EncodeChar
  simp only
  split
  · exact List.not_mem_cons_of_ne_of_not_mem (byte _ (by omega) (by omega)) List.not_mem_nil
  split
  · simp only [List.mem_cons, List.not_mem_nil, or_false, not_or]
    exact ⟨byte _ (by omega) (by omega), byte _ (by omega) (by omega)⟩
  split
  · simp only [List.mem_cons, List.not_mem_nil, or_false, not_or]
    exact ⟨byte _ (by omega) (by omega), byte _ (by omega) (by omega),
      byte _ (by omega) (by omega)⟩
  · simp only [List.mem_cons, List.not_mem_nil, or_false, not_or]
    exact ⟨byte _ (by omega) (by omega), byte _ (by omega) (by omega),
      byte _ (by omega) (by omega), byte _ (by omega) (by omega)⟩

/-- The bytes of a character never begin those of another. -/
theorem eq_of_encode_begins {c d : Char}
    (begins : String.utf8EncodeChar c <+: String.utf8EncodeChar d) : c = d := by
  obtain ⟨rest, same⟩ := begins
  have first : ((String.utf8EncodeChar c).toByteArray ++ rest.toByteArray).utf8DecodeChar? 0 =
      some c := ByteArray.utf8DecodeChar?_utf8EncodeChar_append
  have second : ((String.utf8EncodeChar d).toByteArray ++ ByteArray.empty).utf8DecodeChar? 0 =
      some d := ByteArray.utf8DecodeChar?_utf8EncodeChar_append
  rw [← List.toByteArray_append, same] at first
  rw [ByteArray.append_empty, first] at second
  exact Option.some.inj second

/-- The characters before the first NUL. -/
def untilNul (chars : List Char) : List Char := chars.takeWhile (· != '\x00')

/-- The bytes before the first zero spell the characters before the first NUL, whether
or not zeros follow the text. -/
theorem takeWhile_utf8_append (chars : List Char) (filled : Nat) :
    (utf8 chars ++ List.replicate filled 0).takeWhile (· != 0) = utf8 (untilNul chars) := by
  induction chars with
  | nil => cases filled <;> rfl
  | cons c rest ih =>
    by_cases nul : c = '\x00'
    · subst nul
      rfl
    · have apart : ∀ byte ∈ String.utf8EncodeChar c, (byte != 0) = true := by
        intro byte found
        refine bne_iff_ne.mpr fun zero => zero_not_mem_encode nul ?_
        rw [← zero]
        exact found
      have kept : untilNul (c :: rest) = c :: untilNul rest :=
        List.takeWhile_cons_of_pos (bne_iff_ne.mpr nul)
      rw [utf8_cons, List.append_assoc, List.takeWhile_append_of_pos apart, ih, kept, utf8_cons]

/-- A text whose bytes are all zero has no character but NUL. -/
theorem utf8_all_zero_iff (chars : List Char) :
    (∀ byte ∈ utf8 chars, byte = 0) ↔ ∀ c ∈ chars, c = '\x00' := by
  constructor
  · intro zeros c found
    by_cases nul : c = '\x00'
    · exact nul
    · obtain ⟨byte, within⟩ := List.exists_mem_of_ne_nil (String.utf8EncodeChar c)
        String.utf8EncodeChar_ne_nil
      have zero := zeros byte (List.mem_flatMap.mpr ⟨c, found, within⟩)
      rw [zero] at within
      exact absurd within (zero_not_mem_encode nul)
  · intro nuls byte within
    obtain ⟨c, found, within⟩ := List.mem_flatMap.mp within
    rw [nuls c found] at within
    exact List.mem_singleton.mp within

theorem ofBytes_utf8 (chars : List Char) : ofBytes (utf8 chars) = .ok (String.ofList chars) := by
  have valid : (utf8 chars).toByteArray.IsValidUTF8 := ⟨chars, rfl⟩
  have spelt : String.fromUTF8? (utf8 chars).toByteArray = some (String.ofList chars) := by
    rw [String.fromUTF8?, dif_pos valid]
    rfl
  rw [ofBytes, spelt]

theorem ofBytes_bytes (content : String) : ofBytes (bytes content) = .ok content := by
  rw [bytes, ofBytes_utf8, String.ofList_toList]

/-- A text is read from its own bytes only. -/
theorem ofBytes_eq_ok {row : List UInt8} {content : String} (read : ofBytes row = .ok content) :
    row = bytes content := by
  by_cases valid : row.toByteArray.IsValidUTF8
  · obtain ⟨chars, spelt⟩ := valid
    obtain rfl : row = utf8 chars := List.toByteArray_inj.mp spelt
    rw [ofBytes_utf8] at read
    rw [← Except.ok.inj read, bytes, String.toList_ofList]
  · rw [ofBytes, String.fromUTF8?, dif_neg valid] at read
    cases read

theorem utf8_inj {chars other : List Char} : utf8 chars = utf8 other ↔ chars = other := by
  constructor
  · intro same
    have read := ofBytes_utf8 other
    rw [← same, ofBytes_utf8] at read
    exact String.ofList_injective (Except.ok.inj read)
  · rintro rfl
    rfl

/-- A text without a zero among its bytes goes on to its end. -/
theorem untilNul_of_bare {chars : List Char} (bare : ∀ byte ∈ utf8 chars, byte ≠ 0) :
    untilNul chars = chars := by
  have cut := takeWhile_utf8_append chars 0
  rw [List.takeWhile_append_of_pos fun byte found => bne_iff_ne.mpr (bare byte found)] at cut
  exact (utf8_inj.mp ((List.append_nil _).symm.trans cut)).symm

end OrderPack.Text
