import OrderPack.Proofs.Descriptor.Ending
import OrderPack.Proofs.Descriptor.Grammar
import OrderPack.Proofs.Text.Utf8

/-! One descriptor behind another. What an item stands for depends on what is around it in two
ways only: raw bytes without a count are told apart by whether they come last, and a dot is
passed over in front alone. Where neither comes into play the fields of both descriptors, one
after the other, are the fields of both together. -/
namespace OrderPack.Descriptor

theorem write_append (items more : List Item) :
    write (items ++ more) = write items ++ write more := by
  simp [write]

/-- An item that leaves its length to the end of the buffer is the only one that would stand for
anything else with more behind it. -/
theorem Item.fields_of_closed {item : Item}
    (closed : ∀ field ∈ item.fields true, ¬field.RunsToEnd) :
    item.fields true = item.fields false := by
  cases tag : item.tag with
  | raw | sizedRaw =>
    cases counted : item.count? with
    | none => simp [Item.fields, tag, counted, Field.RunsToEnd] at closed
    | some count => simp [Item.fields, tag, counted]
  | padding | fixedText | text | bits | scalar scalar => simp [Item.fields, tag]

/-- Items that all tell where their fields end stand for the same fields with more behind
them. -/
theorem expand_append {items : List Item} (more : List Item) (continued : more ≠ [])
    (closed : ∀ field ∈ expand items, ¬field.RunsToEnd) :
    expand (items ++ more) = expand items ++ expand more := by
  induction items with
  | nil => rfl
  | cons item items ih =>
    have later := ih fun field found => closed field (List.mem_append_right _ found)
    have inner : (items ++ more).isEmpty = false := by simp [continued]
    rw [List.cons_append, expand, expand, later, inner, List.append_assoc]
    cases items with
    | cons next items => rfl
    | nil =>
      -- This item was the last before, and no longer is.
      have own : ∀ field ∈ item.fields true, ¬field.RunsToEnd :=
        fun field found => closed field (List.mem_append_left _ found)
      rw [← Item.fields_of_closed own]
      rfl

theorem spelling_append {first second : String} (begun : first ≠ "") (continued : second ≠ "") :
    spelling (first ++ second) = spelling first ++ spelling second := by
  have whole : first ++ second ≠ "" := by
    intro empty
    have chars := congrArg String.toList empty
    simp at chars
    exact begun chars.1
  simp [spelling, begun, continued, whole, Text.bytes, Text.utf8_append]

theorem afterDot_append {front : List UInt8} (begun : front ≠ []) (back : List UInt8) :
    (afterDot (front ++ back)).2 = (afterDot front).2 ++ back := by
  cases front with
  | nil => exact absurd rfl begun
  | cons byte front =>
    by_cases dot : Char.ofNat byte.toNat = '.' <;> simp [afterDot, dot]

/-- Of all characters only the dot itself begins with the byte of a dot. -/
theorem afterDot_spelling {text : String} (begun : text ≠ "")
    (dotless : text.toList.head? ≠ some '.') :
    (afterDot (spelling text)).2 = spelling text := by
  cases chars : text.toList with
  | nil => exact absurd (String.toList_eq_nil_iff.mp chars) begun
  | cons c rest =>
    have spelt : spelling text = String.utf8EncodeChar c ++ Text.utf8 rest := by
      rw [spelling, if_neg begun, Text.bytes, chars, Text.utf8_cons]
    rw [spelt]
    cases code : String.utf8EncodeChar c with
    | nil => exact absurd code String.utf8EncodeChar_ne_nil
    | cons byte more =>
      have other : Char.ofNat byte.toNat ≠ '.' := by
        intro dot
        have first : byte = 46 := UInt8.toNat_inj.mp (Layout.toNat_of_dot dot)
        have begins : String.utf8EncodeChar '.' <+: String.utf8EncodeChar c := by
          rw [code, first]
          exact ⟨more, rfl⟩
        rw [chars, ← Text.eq_of_encode_begins begins] at dotless
        exact dotless rfl
      simp [afterDot, other]

/-- The fields of a descriptor that is followed by another. The first must not leave its end to
the buffer, and the other must not begin with a dot. -/
theorem fields_append {first second : String} {front back : List Field}
    (known : fields first = .ok front) (closed : openEnded first = false)
    (more : fields second = .ok back) (continued : second ≠ "")
    (dotless : second.toList.head? ≠ some '.') :
    fields (first ++ second) = .ok (front ++ back) := by
  have tell : ∀ field ∈ front, ¬field.RunsToEnd := by
    intro field found toEnd
    have opens := (openEnded_iff known).mpr ⟨field, found, toEnd⟩
    rw [closed] at opens
    cases opens
  have begun : first ≠ "" := by
    rintro rfl
    cases closed
  obtain ⟨items, written, rfl⟩ := (fields_eq_ok_iff_written first front).mp known
  obtain ⟨others, following, rfl⟩ := (fields_eq_ok_iff_written second back).mp more
  have spelt := spelling_append begun continued
  have behind := following.spelt
  have some := following.begun
  rw [afterDot_spelling continued dotless] at behind some
  have inner : others ≠ [] := by
    rintro rfl
    exact some behind
  have bytes : (afterDot (spelling (first ++ second))).2 = write (items ++ others) := by
    rw [spelt, afterDot_append (spelling_ne_nil first), written.spelt, behind, write_append]
  refine (fields_eq_ok_iff_written _ _).mpr ⟨items ++ others, ?_, expand_append others inner tell⟩
  constructor
  · obtain ⟨byte, rest, same⟩ := List.exists_cons_of_ne_nil (spelling_ne_nil first)
    have unmarked := written.unmarked
    rw [same] at unmarked
    rw [spelt, same]
    exact unmarked
  · rw [spelt, afterDot_append (spelling_ne_nil first)]
    exact List.append_ne_nil_of_left_ne_nil written.begun _
  · exact bytes
  · exact List.forall_mem_append.mpr ⟨written.sound, following.sound⟩

/-- Raw bytes that no longer come last carry their length, and a dot in the middle is no letter. -/
example : fields "u" = .ok [⟨.raw, 1, false⟩] ∧
    fields ("u" ++ "i") = .ok [⟨.sizedRaw, 1, false⟩, .ofScalar (.int .w32)] ∧
    fields ("i" ++ ".i") = .error (.unknownTag 1 46) := by
  refine ⟨?_, ?_, ?_⟩ <;> with_unfolding_all rfl

end OrderPack.Descriptor
