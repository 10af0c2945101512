import OrderPack.Proofs.Record.Emission

/-! Text in a fixed width as it comes to stand behind a buffer. The place to cut it at is searched
for from behind, in its bytes, and what the buffer is filled up to is found from a length that
counts the copied bytes already. The search ends in time and at the last place that will do: as
many whole characters are written as have room, and zeros behind them. A text that is cut leaves
over less room than the next character takes. -/
namespace OrderPack

namespace Field

theorem utf8_nuls (count : Nat) : Text.utf8 (List.replicate count '\x00') = zeros count := by
  induction count with
  | zero => rfl
  | succ count ih =>
    rw [List.replicate_succ, Text.utf8_cons, ih]
    rfl

/-- Characters with zeros behind them are text again, which ends with as many NULs. -/
theorem ofBytes_filled (kept : List Char) (filled : Nat) :
    Text.ofBytes (Text.utf8 kept ++ zeros filled) =
      .ok (String.ofList (kept ++ List.replicate filled '\x00')) := by
  rw [← utf8_nuls, ← Text.utf8_append, Text.ofBytes_utf8]

end Field

namespace Record

/-- Whatever the text, the width and the buffer are, the writing of the text comes to its end. The
search does not pass the beginning, and nothing is taken from out of range. What the buffer held
stays in front, and behind it stand as many bytes as the width says: the longest run of whole
leading characters that has room, and then zeros. These bytes spell a text themselves. Where the
text was cut, fewer zeros are filled in than the next character takes bytes, and so fewer than four.
In machine words it is the same as long as the buffer lies in memory afterwards. -/
theorem fixed_text_written_whole (buffer : List UInt8) (content : String) (width : Nat) :
    ∃ kept filled row, Text.LongestFitting width content.toList kept ∧
      row = Text.utf8 kept ++ Field.zeros filled ∧ row.length = width ∧
      Field.fixedText width content.toList = row ∧
      Field.putFixed? buffer (Text.bytes content) width = some (buffer ++ row) ∧
      (Addressable (buffer ++ row) →
        Field.putFixedAt? buffer (Text.bytes content) width = some (buffer ++ row)) ∧
      Text.ofBytes row = .ok (String.ofList (kept ++ List.replicate filled '\x00')) ∧
      ∀ c rest, content.toList = kept ++ c :: rest → filled < c.utf8Size ∧ filled < 4 := by
  have fitting := Text.takeFitting_longestFitting width content.toList
  have put := Field.putFixed?_eq buffer width content.toList
  refine ⟨Text.takeFitting width content.toList, _, Field.fixedText width content.toList, fitting,
    rfl, Field.length_fixedText width content.toList, rfl, put, ?_, Field.ofBytes_filled _ _, ?_⟩
  · intro addressable
    exact (Field.putFixedAt?_eq_putFixed? addressable).trans put
  · intro c rest cut
    generalize Text.takeFitting width content.toList = kept at fitting cut ⊢
    rw [cut] at fitting
    have fits := fitting.fits
    have scarce := fitting.left_over
    have size := c.utf8Size_le_four
    omega

/-- Three bytes are left over before a character of four. A sum that is no word is met only where
the buffer would have no room in memory. -/
example : Field.putFixed? [9] (Text.bytes "aé😀") 6 = some [9, 97, 195, 169, 0, 0, 0] ∧
    Field.putFixedAt? [9] (Text.bytes "aé😀") 6 = some [9, 97, 195, 169, 0, 0, 0] ∧
    Field.putFixedAt? [] (Text.bytes "a") 18446744073709551615 = none := by with_unfolding_all decide

end Record

end OrderPack
