import Mathlib.Data.Bool.AllAny
import OrderPack.Proofs.Descriptor.Grammar
import OrderPack.Proofs.Text.Utf8

/-! The characters of valid descriptors: a dot, decimal digits and the letters of tags. Each of
them is a single byte, and of the bytes of other characters none stands in a valid descriptor. So
whoever puts a descriptor into a text of his own may give a meaning to all others. -/
namespace OrderPack.Descriptor

/-- The characters that a descriptor is written with. -/
def alphabet : List Char := ".0123456789xsSuUtbBhilqHILQrR".toList

/-- A byte is a character of that alphabet. -/
def Lettered (byte : UInt8) : Prop := Char.ofNat byte.toNat ∈ alphabet

theorem lettered_digitByte (digit : Fin 10) : Lettered (digitByte digit) := by
  have all : ∀ digit : Fin 10, Char.ofNat (digitByte digit).toNat ∈ alphabet := by decide
  exact all digit

theorem letters_subset_alphabet (tag : Tag) : tag.letters ⊆ alphabet := by
  rcases tag with _ | _ | _ | _ | _ | _ | _ | _ | (_ | _ | _ | _) | (_ | _ | _ | _) | _ <;> decide

theorem lettered_write (items : List Item) : ∀ byte ∈ write items, Lettered byte := by
  intro byte found
  obtain ⟨item, _, inside⟩ := List.mem_flatMap.mp found
  rcases List.mem_append.mp inside with digit | letter
  · obtain ⟨value, _, rfl⟩ := List.mem_map.mp digit
    exact lettered_digitByte value
  · rw [List.mem_singleton.mp letter]
    exact letters_subset_alphabet item.tag item.known

/-- The dot in front is in the alphabet like what is behind it. -/
theorem Written.lettered {text : String} {items : List Item} (written : Written text items) :
    ∀ byte ∈ spelling text, Lettered byte := by
  have behind := lettered_write items
  rw [← written.spelt] at behind
  cases spelt : spelling text with
  | nil => exact absurd spelt (spelling_ne_nil text)
  | cons first rest =>
    rw [spelt, afterDot] at behind
    split at behind
    · rename_i dot
      refine List.forall_mem_cons.mpr ⟨?_, behind⟩
      rw [Lettered, dot]
      decide
    · exact behind

/-- A lettered byte spells its character. -/
theorem encode_of_lettered {byte : UInt8} (lettered : Lettered byte) :
    String.utf8EncodeChar (Char.ofNat byte.toNat) = [byte] := by
  have single : ∀ c ∈ alphabet, String.utf8EncodeChar c = [UInt8.ofNat c.toNat] :=
    List.all_iff_forall_prop.mp (by decide)
  have valid : byte.toNat.isValidChar := .inl (Nat.lt_trans byte.toNat_lt (by decide))
  have code : (Char.ofNat byte.toNat).toNat = byte.toNat := by
    rw [Char.ofNat, dif_pos valid]
    rfl
  rw [single _ lettered, code, UInt8.ofNat_toNat]

/-- All characters of a valid descriptor are in the alphabet. -/
theorem mem_alphabet {text : String} {all : List Field} (known : fields text = .ok all) :
    ∀ c ∈ text.toList, c ∈ alphabet := by
  intro c found
  obtain ⟨items, written, _⟩ := (fields_eq_ok_iff_written text all).mp known
  have some : text ≠ "" := by
    rintro rfl
    cases found
  have bytes : ∀ byte ∈ String.utf8EncodeChar c, Lettered byte := by
    intro byte inside
    apply written.lettered
    rw [spelling, if_neg some]
    exact List.mem_flatMap.mpr ⟨c, found, inside⟩
  cases code : String.utf8EncodeChar c with
  | nil => exact absurd code String.utf8EncodeChar_ne_nil
  | cons first rest =>
    -- The first byte alone spells a character of the alphabet, which is therefore this one.
    have lettered := bytes first (by simp [code])
    have begins : String.utf8EncodeChar (Char.ofNat first.toNat) <+: String.utf8EncodeChar c := by
      rw [encode_of_lettered lettered, code]
      exact ⟨rest, rfl⟩
    rw [← Text.eq_of_encode_begins begins]
    exact lettered

end OrderPack.Descriptor
