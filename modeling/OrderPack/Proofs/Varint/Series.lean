import OrderPack.Proofs.Varint.Order
import OrderPack.Proofs.Varint.RoundTrip

/-! Encoded integers stand side by side in a buffer with nothing between them. Each of
them tells its own end, so it is read from its place in the buffer whatever stands
before and behind it, and a row of them reads back as that row and as no other. -/
namespace OrderPack.Varint

/-- The integers found by decoding again and again, until no byte is left. -/
inductive Series (decode : Reader → Except Error (α × Reader)) : Reader → List α → Prop where
  | ended : Series decode ⟨offset, []⟩ []
  | next (read : decode reader = .ok (x, after)) (later : Series decode after xs) :
      Series decode reader (x :: xs)

section Codec
variable {decode : Reader → Except Error (α × Reader)} {encode : α → List UInt8}

/-- What is read first is read in every series from that place. -/
theorem series_iff_of_read (starved : ∀ offset, ∃ error, decode ⟨offset, []⟩ = .error error)
    (read : decode reader = .ok (x, after)) (ys : List α) :
    Series decode reader ys ↔ ∃ xs, ys = x :: xs ∧ Series decode after xs := by
  constructor
  · intro series
    cases series with
    | ended =>
      obtain ⟨error, failed⟩ := starved _
      rw [failed] at read
      cases read
    | next first later =>
      rw [read] at first
      cases first
      exact ⟨_, rfl, later⟩
  · rintro ⟨xs, rfl, later⟩
    exact .next read later

/-- A row of encodings has one series, if a single one is read back before any rest. -/
theorem series_flatMap_iff (starved : ∀ offset, ∃ error, decode ⟨offset, []⟩ = .error error)
    (back : ∀ offset rest x, decode ⟨offset, encode x ++ rest⟩ =
      .ok (x, ⟨offset + (encode x).length, rest⟩)) (offset : Nat) (xs ys : List α) :
    Series decode ⟨offset, xs.flatMap encode⟩ ys ↔ ys = xs := by
  induction xs generalizing offset ys with
  | nil =>
    constructor
    · intro series
      cases series with
      | ended => rfl
      | next read later =>
        obtain ⟨error, failed⟩ := starved offset
        rw [List.flatMap_nil, failed] at read
        cases read
    · rintro rfl
      exact .ended
  | cons x xs ih =>
    rw [List.flatMap_cons, series_iff_of_read starved (back offset _ x)]
    constructor
    · rintro ⟨rest, rfl, later⟩
      rw [(ih _ rest).mp later]
    · rintro rfl
      exact ⟨xs, rfl, (ih _ xs).mpr rfl⟩

/-- What is read before any rest is read in the midst of any buffer. -/
theorem decode_ofBuffer
    (back : ∀ offset rest x, decode ⟨offset, encode x ++ rest⟩ =
      .ok (x, ⟨offset + (encode x).length, rest⟩)) (x : α) (before after : List UInt8) :
    decode (.ofBuffer (before ++ encode x ++ after) before.length) =
      .ok (x, .ofBuffer (before ++ encode x ++ after) (before.length + (encode x).length)) := by
  have passed := Reader.ofBuffer_append (before ++ encode x) after
  rw [List.length_append] at passed
  rw [passed, List.append_assoc, Reader.ofBuffer_append, back]

end Codec

/-- A word is read back from any place in a buffer, and the reading goes on right behind
it. So no encoding begins another one, and words written in a row are read back as that
row, whatever stands before them. -/
theorem encoded_words_read_in_place :
    (∀ (x : UInt64) (before after : List UInt8),
      decodeUnsigned (.ofBuffer (before ++ encodeUnsigned x ++ after) before.length) =
        .ok (x, .ofBuffer (before ++ encodeUnsigned x ++ after)
          (before.length + sizeUnsigned x))) ∧
    (∀ (x : Int64) (before after : List UInt8),
      decodeSigned (.ofBuffer (before ++ encodeSigned x ++ after) before.length) =
        .ok (x, .ofBuffer (before ++ encodeSigned x ++ after) (before.length + sizeSigned x))) ∧
    (∀ x y : UInt64, encodeUnsigned x <+: encodeUnsigned y ↔ x = y) ∧
    (∀ x y : Int64, encodeSigned x <+: encodeSigned y ↔ x = y) ∧
    (∀ (x : UInt64) (y : Int64),
      (encodeUnsigned x <+: encodeSigned y ↔ (x.toNat : Int) = y.toInt) ∧
      (encodeSigned y <+: encodeUnsigned x ↔ (x.toNat : Int) = y.toInt)) ∧
    (∀ (before : List UInt8) (xs ys : List UInt64),
      Series decodeUnsigned (.ofBuffer (before ++ xs.flatMap encodeUnsigned) before.length) ys ↔
        ys = xs) ∧
    (∀ (before : List UInt8) (xs ys : List Int64),
      Series decodeSigned (.ofBuffer (before ++ xs.flatMap encodeSigned) before.length) ys ↔
        ys = xs) := by
  refine ⟨?_, ?_, ?_, ?_, ?_, ?_, ?_⟩
  · intro x before after
    rw [← length_encodeUnsigned]
    exact decode_ofBuffer decodeUnsigned_encodeUnsigned x before after
  · intro x before after
    rw [← length_encodeSigned]
    exact decode_ofBuffer decodeSigned_encodeSigned x before after
  · intro x y
    rw [encodeUnsigned_eq_encodeInt, encodeUnsigned_eq_encodeInt,
      encodeInt_prefix_iff (inWord_toNat x) (inWord_toNat y), Int.ofNat_inj, UInt64.toNat_inj]
  · intro x y
    rw [encodeSigned_eq_encodeInt, encodeSigned_eq_encodeInt,
      encodeInt_prefix_iff (inWord_toInt x) (inWord_toInt y), Int64.toInt_inj]
  · intro x y
    rw [encodeUnsigned_eq_encodeInt, encodeSigned_eq_encodeInt]
    refine ⟨encodeInt_prefix_iff (inWord_toNat x) (inWord_toInt y), ?_⟩
    rw [encodeInt_prefix_iff (inWord_toInt y) (inWord_toNat x)]
    exact eq_comm
  · intro before xs ys
    rw [Reader.ofBuffer_append]
    exact series_flatMap_iff (fun _ => ⟨_, rfl⟩) decodeUnsigned_encodeUnsigned _ xs ys
  · intro before xs ys
    rw [Reader.ofBuffer_append]
    exact series_flatMap_iff (fun _ => ⟨_, rfl⟩) decodeSigned_encodeSigned _ xs ys

end OrderPack.Varint
