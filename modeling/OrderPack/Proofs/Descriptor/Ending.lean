import OrderPack.Proofs.Descriptor.Fields

/-! Whether a record takes all that is left of its buffer shows at the end of its
descriptor. It does if raw bytes without a count are the last item, and also if the
descriptor is empty, since this stands for raw bytes. -/
namespace OrderPack

/-- A field whose own bytes tell where it ends. -/
def Field.TellsEnd (field : Field) : Prop := field.WellFormed ∧ ¬field.RunsToEnd

theorem Arranged.tellEnd {fields : List Field} (arranged : Arranged fields)
    (closed : ¬∃ field ∈ fields, field.RunsToEnd) : ∀ field ∈ fields, field.TellsEnd := by
  intro field found
  exact ⟨arranged.wellFormed field found, fun toEnd => closed ⟨field, found, toEnd⟩⟩

/-- All fields before one that runs to the end tell their own ends, and none follows it. -/
theorem Arranged.runsToEnd_last {fields : List Field} (arranged : Arranged fields)
    (opens : ∃ field ∈ fields, field.RunsToEnd) :
    ∃ earlier last, fields = earlier ++ [last] ∧ last.RunsToEnd ∧
      ∀ field ∈ earlier, field.TellsEnd := by
  induction fields with
  | nil =>
    obtain ⟨_, found, _⟩ := opens
    cases found
  | cons first rest ih =>
    obtain ⟨formed, ends, arranged⟩ := arranged
    by_cases toEnd : first.RunsToEnd
    · refine ⟨[], first, ?_, toEnd, fun _ found => nomatch found⟩
      rw [ends toEnd, List.nil_append]
    · have later : ∃ field ∈ rest, field.RunsToEnd := by
        obtain ⟨field, found, itsEnd⟩ := opens
        rcases List.mem_cons.mp found with rfl | inside
        · exact absurd itsEnd toEnd
        · exact ⟨field, inside, itsEnd⟩
      obtain ⟨earlier, last, rfl, lastToEnd, tell⟩ := ih arranged later
      refine ⟨first :: earlier, last, rfl, lastToEnd, ?_⟩
      exact List.forall_mem_cons.mpr ⟨⟨formed, toEnd⟩, tell⟩

namespace Layout

/-- The two letters of raw bytes. At the end of a descriptor they mean the same. -/
def rawLetter (letter : UInt8) : Bool :=
  Tag.ofByte? letter == some .raw || Tag.ofByte? letter == some .sizedRaw

/-- Whether the last of these bytes is a letter of raw bytes with no digit before it;
`counted` tells of a digit before the first. -/
def endsOpen (counted : Bool) : List UInt8 → Bool
  | [] => false
  | [letter] => !counted && rawLetter letter
  | byte :: rest => endsOpen (digit? byte).isSome rest

theorem endsOpen_cons_cons (counted : Bool) (byte next : UInt8) (rest : List UInt8) :
    endsOpen counted (byte :: next :: rest) = endsOpen (digit? byte).isSome (next :: rest) := rfl

theorem toNat_of_dot {byte : UInt8} (dot : Char.ofNat byte.toNat = '.') : byte.toNat = 46 := by
  have valid : byte.toNat.isValidChar := .inl (Nat.lt_trans byte.toNat_lt (by decide))
  rw [Char.ofNat, dif_pos valid] at dot
  exact congrArg Char.toNat dot

theorem digit?_dot {byte : UInt8} (dot : Char.ofNat byte.toNat = '.') : digit? byte = none := by
  have code := toNat_of_dot dot
  rw [digit?, if_neg (by omega)]

/-- A layout that has a field running to the end of the buffer. -/
def RunsToEnd (layout : Layout) : Prop := ∃ field ∈ layout.leading, field.RunsToEnd

theorem runsToEnd_single (field : Field) (rest : Layout) :
    (single field rest).RunsToEnd ↔ field.RunsToEnd ∨ rest.RunsToEnd := by
  simp only [RunsToEnd, leading, List.mem_cons, exists_eq_or_imp]

theorem runsToEnd_repeated (scalar : Scalar) (copies : Nat) (rest : Layout) :
    (repeated scalar copies rest).RunsToEnd ↔ rest.RunsToEnd := by
  constructor
  · rintro ⟨field, found, toEnd⟩
    rcases List.mem_append.mp found with copy | later
    · rw [List.eq_of_mem_replicate copy] at toEnd
      exact nomatch toEnd.1
    · exact ⟨field, later, toEnd⟩
  · rintro ⟨field, found, toEnd⟩
    exact ⟨field, List.mem_append_right _ found, toEnd⟩

/-- A sound item runs to the end if it is raw bytes, has no count and is the last; if not,
what follows it may. -/
private theorem ofItem_runsToEnd_iff (offset : Nat) (count : Option Nat) (tag : Tag) (last : Bool)
    (rest : Layout) (sound : (ofItem offset count tag last rest).fault? = none) :
    rest.fault? = none ∧ ((ofItem offset count tag last rest).RunsToEnd ↔
      (count = none ∧ last = true ∧ (tag = .raw ∨ tag = .sizedRaw)) ∨ rest.RunsToEnd) := by
  unfold ofItem at sound ⊢
  cases tag with
  | padding | text =>
    refine ⟨sound, ?_⟩
    rw [runsToEnd_single]
    simp [Field.RunsToEnd]
  | fixedText | bits =>
    simp only at sound ⊢
    split at sound
    · rw [if_pos ‹_›, runsToEnd_single]
      refine ⟨sound, ?_⟩
      simp [Field.RunsToEnd]
    · cases sound
  | raw | sizedRaw =>
    refine ⟨sound, ?_⟩
    simp only [runsToEnd_single, Field.RunsToEnd]
    cases count <;> cases last <;> simp
  | scalar scalar =>
    refine ⟨sound, ?_⟩
    simp only [runsToEnd_repeated]
    simp

theorem scan_runsToEnd_iff (count : Option Count) (offset : Nat) (bytes : List UInt8)
    (sound : (scan count offset bytes).fault? = none) :
    (scan count offset bytes).RunsToEnd ↔ endsOpen count.isSome bytes = true := by
  induction bytes generalizing count offset with
  | nil =>
    cases count with
    | none => simp [scan, RunsToEnd, leading, endsOpen]
    | some count => cases sound
  | cons byte rest ih =>
    rw [scan] at sound ⊢
    cases read : digit? byte with
    | some digit =>
      -- A letter has to follow the count, so the digit is not the last byte.
      have further : ∀ grown, (scan (some grown) (offset + 1) rest).fault? = none →
          ((scan (some grown) (offset + 1) rest).RunsToEnd ↔
            endsOpen count.isSome (byte :: rest) = true) := by
        intro grown sound
        cases rest with
        | nil => cases sound
        | cons next rest =>
          rw [endsOpen_cons_cons, read]
          exact ih (some grown) _ sound
      simp only [read] at sound ⊢
      cases count with
      | none => exact further _ sound
      | some count =>
        simp only at sound ⊢
        split at sound
        · rw [if_pos ‹_›]
          exact further _ sound
        · cases sound
    | none =>
      simp only [read] at sound ⊢
      cases letter : Tag.ofByte? byte with
      | none =>
        rw [letter] at sound
        cases sound
      | some tag =>
        rw [letter] at sound
        obtain ⟨later, opens⟩ := ofItem_runsToEnd_iff _ _ _ _ _ sound
        rw [opens, ih _ _ later]
        cases rest with
        | nil => simp [endsOpen, rawLetter, letter]
        | cons next rest => simp [endsOpen_cons_cons, read]

end Layout

namespace Descriptor

/-- A descriptor that leaves the length of its last field to the buffer. -/
def openEnded (text : String) : Bool :=
  text.isEmpty || Layout.endsOpen false (Text.bytes text)

/-- A leading dot makes no difference to how a descriptor ends. -/
private theorem ofText_runsToEnd_iff {text : String} {layout : Layout}
    (opened : Layout.ofText text = .ok layout) (sound : layout.fault? = none) :
    layout.RunsToEnd ↔
      Layout.endsOpen false (Text.bytes (if text.isEmpty then Layout.defaultText else text)) =
        true := by
  unfold Layout.ofText at opened
  split at opened
  · cases opened
  · rename_i first rest spelt
    rw [spelt]
    split at opened
    · cases opened
    · cases opened
    · cases opened
    · rename_i dot
      cases rest with
      | nil => cases opened
      | cons next rest =>
        cases opened
        rw [Layout.endsOpen_cons_cons, Layout.digit?_dot dot]
        exact Layout.scan_runsToEnd_iff none 1 _ sound
    · cases opened
      exact Layout.scan_runsToEnd_iff none 0 _ sound

/-- Just the descriptors that end so have a field that runs to the end of the buffer. -/
theorem openEnded_iff {text : String} {all : List Field} (known : fields text = .ok all) :
    openEnded text = true ↔ ∃ field ∈ all, field.RunsToEnd := by
  obtain ⟨layout, opened, sound, rfl⟩ := fields_eq_ok_iff.mp known
  refine Iff.trans ?_ (ofText_runsToEnd_iff opened sound).symm
  unfold openEnded
  cases text.isEmpty with
  | true =>
    have default : Layout.endsOpen false (Text.bytes Layout.defaultText) = true := by
      with_unfolding_all rfl
    exact ⟨fun _ => default, fun _ => rfl⟩
  | false => exact Iff.rfl

example : openEnded "" = true ∧ openEnded ".q2SU" = true ∧ openEnded "q3u" = false ∧
    openEnded "uu0x" = false := by
  refine ⟨?_, ?_, ?_, ?_⟩ <;> with_unfolding_all rfl

end Descriptor

end OrderPack
