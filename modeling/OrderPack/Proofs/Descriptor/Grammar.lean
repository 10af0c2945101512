import OrderPack.Descriptor.Cursor
import OrderPack.Proofs.Descriptor.Fields

/-! The grammar of descriptors, apart from any scan. A descriptor is a row of items, each a
tag letter with perhaps a decimal count before it, and it stands for the fields of its items
in order. Where a row of bytes is no such row, some items still stand before the leftmost
part that is none, and this part is what is at fault. One of the two readings always
applies, and the scan gives the fields of the one and the fault of the other. -/
namespace OrderPack

namespace Tag

/-- The letters for a tag. Integers have one for each width and sign, two letters share the width
of 32 bits, and record numbers have a letter of their own. -/
def letters : Tag → List Char
  | .padding => ['x']
  | .fixedText => ['s']
  | .text => ['S']
  | .raw => ['u']
  | .sizedRaw => ['U']
  | .bits => ['t']
  | .scalar .int8 => ['b']
  | .scalar .uint8 => ['B']
  | .scalar (.int .w16) => ['h']
  | .scalar (.int .w32) => ['i', 'l']
  | .scalar (.int .w64) => ['q']
  | .scalar (.int .recno) => []
  | .scalar (.uint .w16) => ['H']
  | .scalar (.uint .w32) => ['I', 'L']
  | .scalar (.uint .w64) => ['Q']
  | .scalar (.uint .recno) => ['r']
  | .scalar .recordId => ['R']

/-- A byte is read as a tag just if it is one of the letters for it. -/
theorem ofByte?_eq_some_iff {byte : UInt8} {tag : Tag} :
    ofByte? byte = some tag ↔ Char.ofNat byte.toNat ∈ tag.letters := by
  constructor
  · intro known
    unfold ofByte? at known
    split at known
    case h_19 => cases known
    all_goals
      rename_i letter
      cases known
      rw [letter]
      decide
  · intro letter
    unfold ofByte?
    rcases tag with _ | _ | _ | _ | _ | _ | _ | _ | (_ | _ | _ | _) | (_ | _ | _ | _) | _
    all_goals
      simp only [letters, List.mem_cons, List.not_mem_nil, or_false] at letter
    all_goals grind

theorem ofByte?_eq_none_iff {byte : UInt8} :
    ofByte? byte = none ↔ ∀ tag : Tag, Char.ofNat byte.toNat ∉ tag.letters := by
  rw [Option.eq_none_iff_forall_ne_some]
  exact forall_congr' fun _ => not_congr ofByte?_eq_some_iff

end Tag

namespace Descriptor

/-- The ASCII byte of a decimal digit. -/
def digitByte (digit : Fin 10) : UInt8 := UInt8.ofNat (48 + digit.val)

/-- A row of digits as it is written. -/
def spell (digits : List (Fin 10)) : List UInt8 := digits.map digitByte

/-- The number that further digits make of a number. -/
def extend (value : Nat) (digits : List (Fin 10)) : Nat :=
  digits.foldl (fun value digit => value * 10 + digit.val) value

/-- The number that a row of digits stands for. Zeros in front do not matter. -/
def numeral (digits : List (Fin 10)) : Nat := extend 0 digits

/-- An item as it is written: the digits of its count, if it has one, and its letter. -/
structure Item where
  digits : List (Fin 10)
  letter : UInt8
  tag : Tag
  known : Char.ofNat letter.toNat ∈ tag.letters

namespace Item

def bytes (item : Item) : List UInt8 := spell item.digits ++ [item.letter]

/-- The count that is written. -/
def count? (item : Item) : Option Nat :=
  if item.digits = [] then none else some (numeral item.digits)

/-- The count, which is one where none is written. -/
def count (item : Item) : Nat := item.count?.getD 1

/-- A count is a machine word. Text of a fixed width has at least one byte, and a bit field
one to eight bits. -/
structure Sound (item : Item) : Prop where
  word : numeral item.digits < UInt64.size
  text : item.tag = .fixedText → 1 ≤ item.count
  bits : item.tag = .bits → 1 ≤ item.count ∧ item.count ≤ 8

/-- The fields that an item stands for. The count of a scalar repeats it, and any other
count is a size. Raw bytes without a count carry their length, unless they come last. -/
def fields (item : Item) (last : Bool) : List Field :=
  match item.tag with
  | .scalar scalar => List.replicate item.count ⟨.scalar scalar, 1, false⟩
  | .raw | .sizedRaw =>
    if item.count? = none ∧ last = false then [⟨.sizedRaw, 1, false⟩]
    else [⟨.raw, item.count, item.count?.isSome⟩]
  | tag => [⟨tag, item.count, item.count?.isSome⟩]

end Item

/-- The bytes of a row of items. -/
def write (items : List Item) : List UInt8 := items.flatMap Item.bytes

/-- The fields that a row of items stands for. -/
def expand : List Item → List Field
  | [] => []
  | item :: rest => item.fields rest.isEmpty ++ expand rest

/-- What is wrong with bytes, the first of which stands at `offset`, where an item should
begin. -/
inductive Fault (offset : Nat) : List UInt8 → Error → Prop where
  | countOverflow (large : UInt64.size ≤ numeral digits) :
      Fault offset (spell digits ++ rest) (.countOverflow offset)
  | danglingCount (counted : digits ≠ []) (word : numeral digits < UInt64.size) :
      Fault offset (spell digits) (.danglingCount offset)
  | unknownTag (word : numeral digits < UInt64.size) (noDigit : ∀ digit, letter ≠ digitByte digit)
      (unknown : ∀ tag : Tag, Char.ofNat letter.toNat ∉ tag.letters) :
      Fault offset (spell digits ++ letter :: rest) (.unknownTag (offset + digits.length) letter)
  | emptyText {item : Item} (tag : item.tag = .fixedText) (outside : item.count < 1) :
      Fault offset (item.bytes ++ rest) (.emptyText (offset + item.digits.length))
  | bitCount {item : Item} (tag : item.tag = .bits) (word : numeral item.digits < UInt64.size)
      (outside : item.count < 1 ∨ 8 < item.count) :
      Fault offset (item.bytes ++ rest) (.bitCount (offset + item.digits.length))

/-- The leftmost fault of a row of bytes: all that stands before it are sound items. -/
def Leftmost (offset : Nat) (bytes : List UInt8) (error : Error) : Prop :=
  ∃ earlier rest, bytes = write earlier ++ rest ∧ (∀ item ∈ earlier, item.Sound) ∧
    Fault (offset + (write earlier).length) rest error

theorem digit?_digitByte (digit : Fin 10) : Layout.digit? (digitByte digit) = some digit.val := by
  revert digit
  decide

theorem digit?_eq_some {byte : UInt8} {value : Nat} (read : Layout.digit? byte = some value) :
    ∃ digit : Fin 10, byte = digitByte digit ∧ value = digit.val := by
  rw [Layout.digit?] at read
  split at read
  · rename_i decimal
    cases read
    refine ⟨⟨byte.toNat - 48, by omega⟩, ?_, rfl⟩
    apply UInt8.toNat_inj.mp
    have small : 48 + (byte.toNat - 48) < 256 := by omega
    rw [digitByte, UInt8.toNat_ofNat_of_lt' small]
    omega
  · cases read

theorem digit?_eq_none_iff {byte : UInt8} :
    Layout.digit? byte = none ↔ ∀ digit, byte ≠ digitByte digit := by
  constructor
  · rintro none digit rfl
    rw [digit?_digitByte] at none
    cases none
  · intro noDigit
    cases read : Layout.digit? byte with
    | none => rfl
    | some value =>
      obtain ⟨digit, same, _⟩ := digit?_eq_some read
      exact absurd same (noDigit digit)

theorem le_extend (value : Nat) (digits : List (Fin 10)) : value ≤ extend value digits := by
  induction digits generalizing value with
  | nil => exact Nat.le_refl value
  | cons digit digits ih =>
    have grown := ih (value * 10 + digit.val)
    rw [extend, List.foldl_cons]
    exact Nat.le_trans (by omega) grown

/-- Letters are no digits. -/
theorem digit?_of_known {letter : UInt8} {tag : Tag} (known : Tag.ofByte? letter = some tag) :
    Layout.digit? letter = none := by
  have letterless : ∀ digit, Tag.ofByte? (digitByte digit) = none := by decide
  rw [digit?_eq_none_iff]
  rintro digit rfl
  rw [letterless] at known
  cases known

theorem Item.read (item : Item) : Tag.ofByte? item.letter = some item.tag :=
  Tag.ofByte?_eq_some_iff.mpr item.known

/-- Digits within the range of counts are read into the count. -/
private theorem scan_digits (count : Layout.Count) (offset : Nat) (digits : List (Fin 10))
    (rest : List UInt8) (word : extend count.value digits < UInt64.size) :
    Layout.scan (some count) offset (spell digits ++ rest) =
      Layout.scan (some ⟨extend count.value digits, count.offset⟩) (offset + digits.length)
        rest := by
  induction digits generalizing count offset with
  | nil => rfl
  | cons digit digits ih =>
    rw [extend, List.foldl_cons] at word ⊢
    have small : count.value * 10 + digit.val < Layout.countLimit :=
      Nat.lt_of_le_of_lt (le_extend _ digits) word
    rw [spell, List.map_cons, List.cons_append, Layout.scan, digit?_digitByte]
    simp only
    rw [if_pos small]
    refine (ih ⟨count.value * 10 + digit.val, count.offset⟩ (offset + 1) word).trans ?_
    rw [List.length_cons, Nat.add_assoc, Nat.add_comm 1]
    rfl

private theorem scan_digits_fault (count : Layout.Count) (offset : Nat)
    (digits : List (Fin 10)) (rest : List UInt8) (small : count.value < UInt64.size)
    (large : UInt64.size ≤ extend count.value digits) :
    (Layout.scan (some count) offset (spell digits ++ rest)).fault? =
        some (.countOverflow count.offset) ∧
      (Layout.scan (some count) offset (spell digits ++ rest)).leading = [] := by
  induction digits generalizing count offset with
  | nil => exact absurd small (Nat.not_lt.mpr large)
  | cons digit digits ih =>
    rw [extend, List.foldl_cons] at large
    rw [spell, List.map_cons, List.cons_append, Layout.scan, digit?_digitByte]
    simp only
    split
    · exact ih ⟨count.value * 10 + digit.val, count.offset⟩ (offset + 1) ‹_› large
    · exact ⟨rfl, rfl⟩

/-- The count under way after a row of digits that begins at `offset`. -/
private def counted (offset : Nat) (digits : List (Fin 10)) : Option Layout.Count :=
  if digits = [] then none else some ⟨numeral digits, offset⟩

private theorem scan_numeral (offset : Nat) (digits : List (Fin 10)) (rest : List UInt8)
    (word : numeral digits < UInt64.size) :
    Layout.scan none offset (spell digits ++ rest) =
      Layout.scan (counted offset digits) (offset + digits.length) rest := by
  cases digits with
  | nil => rfl
  | cons digit digits =>
    have first : extend digit.val digits = numeral (digit :: digits) := by
      rw [numeral, extend, extend, List.foldl_cons, Nat.zero_mul, Nat.zero_add]
    rw [spell, List.map_cons, List.cons_append, Layout.scan, digit?_digitByte]
    simp only
    refine (scan_digits ⟨digit.val, offset⟩ (offset + 1) digits rest (first ▸ word)).trans ?_
    rw [counted, if_neg (List.cons_ne_nil digit digits), first, List.length_cons, Nat.add_assoc,
      Nat.add_comm 1]

private theorem scan_numeral_fault (offset : Nat) (digits : List (Fin 10)) (rest : List UInt8)
    (large : UInt64.size ≤ numeral digits) :
    (Layout.scan none offset (spell digits ++ rest)).fault? = some (.countOverflow offset) ∧
      (Layout.scan none offset (spell digits ++ rest)).leading = [] := by
  cases digits with
  | nil => exact absurd large (by decide)
  | cons digit digits =>
    have first : extend digit.val digits = numeral (digit :: digits) := by
      rw [numeral, extend, extend, List.foldl_cons, Nat.zero_mul, Nat.zero_add]
    have small : digit.val < UInt64.size := Nat.lt_trans digit.isLt (by decide)
    rw [spell, List.map_cons, List.cons_append, Layout.scan, digit?_digitByte]
    exact scan_digits_fault ⟨digit.val, offset⟩ (offset + 1) digits rest small (first ▸ large)

theorem scan_letter (count : Option Layout.Count) (offset : Nat) (letter : UInt8)
    (rest : List UInt8) (noDigit : Layout.digit? letter = none) :
    Layout.scan count offset (letter :: rest) =
      match Tag.ofByte? letter with
      | none => .stuck (.unknownTag offset letter)
      | some tag => Layout.ofItem offset (count.map Layout.Count.value) tag rest.isEmpty
          (Layout.scan none (offset + 1) rest) := by
  cases known : Tag.ofByte? letter with
  | none => simp only [Layout.scan, noDigit, known]
  | some tag => simp only [Layout.scan, noDigit, known]

/-- An item is laid out in front of whatever follows it. -/
theorem scan_item (offset : Nat) (item : Item) (rest : List UInt8)
    (word : numeral item.digits < UInt64.size) :
    Layout.scan none offset (item.bytes ++ rest) =
      Layout.ofItem (offset + item.digits.length) item.count? item.tag rest.isEmpty
        (Layout.scan none (offset + item.bytes.length) rest) := by
  have value : (counted offset item.digits).map Layout.Count.value = item.count? := by
    rw [counted, Item.count?]
    split <;> rfl
  have length : item.bytes.length = item.digits.length + 1 := by
    rw [Item.bytes, spell, List.length_append, List.length_map, List.length_singleton]
  rw [length, Item.bytes, List.append_assoc, scan_numeral offset _ _ word, List.singleton_append,
    scan_letter _ _ _ _ (digit?_of_known item.read), item.read, value]
  rfl

/-- A sound item is laid out as its fields. -/
theorem Item.Sound.layout {item : Item} (sound : item.Sound) (offset : Nat) (last : Bool)
    (rest : Layout) :
    (Layout.ofItem offset item.count? item.tag last rest).fault? = rest.fault? ∧
      (Layout.ofItem offset item.count? item.tag last rest).leading =
        item.fields last ++ rest.leading := by
  obtain ⟨_, text, bits⟩ := sound
  unfold Layout.ofItem Item.fields
  unfold Item.count at *
  cases tag : item.tag with
  | padding | text => exact ⟨rfl, rfl⟩
  | fixedText =>
    simp only
    rw [if_pos (text tag)]
    exact ⟨rfl, rfl⟩
  | bits =>
    simp only
    rw [if_pos (bits tag)]
    exact ⟨rfl, rfl⟩
  | raw | sizedRaw =>
    cases item.count? <;> cases last <;> exact ⟨rfl, rfl⟩
  | scalar scalar => exact ⟨rfl, rfl⟩

/-- A fault where an item should begin is found before any field. -/
theorem scan_fault {offset : Nat} {bytes : List UInt8} {error : Error}
    (fault : Fault offset bytes error) :
    (Layout.scan none offset bytes).fault? = some error ∧
      (Layout.scan none offset bytes).leading = [] := by
  cases fault with
  | countOverflow large => exact scan_numeral_fault offset _ _ large
  | @danglingCount digits digitsBefore word =>
    rw [← List.append_nil (spell digits), scan_numeral offset _ _ word, counted,
      if_neg digitsBefore]
    exact ⟨rfl, rfl⟩
  | unknownTag word noDigit unknown =>
    rw [scan_numeral offset _ _ word, scan_letter _ _ _ _ (digit?_eq_none_iff.mpr noDigit),
      Tag.ofByte?_eq_none_iff.mpr unknown]
    exact ⟨rfl, rfl⟩
  | @emptyText _ item tag outside =>
    have word : numeral item.digits < UInt64.size := by
      unfold Item.count Item.count? at outside
      split at outside
      · rename_i none
        rw [none]
        decide
      · exact Nat.lt_trans outside (by decide)
    unfold Item.count at outside
    rw [scan_item offset item _ word, tag]
    simp only [Layout.ofItem]
    rw [if_neg (Nat.not_le.mpr outside)]
    exact ⟨rfl, rfl⟩
  | @bitCount _ item tag word outside =>
    unfold Item.count at outside
    rw [scan_item offset item _ word, tag]
    simp only [Layout.ofItem]
    rw [if_neg (by omega)]
    exact ⟨rfl, rfl⟩

/-- Sound items do not get in the way of a fault behind them. -/
theorem scan_write_fault (offset : Nat) (items : List Item) (rest : List UInt8)
    (sound : ∀ item ∈ items, item.Sound) :
    (Layout.scan none offset (write items ++ rest)).fault? =
      (Layout.scan none (offset + (write items).length) rest).fault? := by
  induction items generalizing offset with
  | nil => rfl
  | cons item items ih =>
    obtain ⟨first, sound⟩ := List.forall_mem_cons.mp sound
    rw [write, List.flatMap_cons, List.append_assoc, scan_item offset item _ first.word,
      (first.layout _ _ _).1]
    refine (ih (offset + item.bytes.length) sound).trans ?_
    rw [List.length_append, Nat.add_assoc]
    rfl

/-- Sound items with more behind them are laid out as their fields. None of them is the last
item. -/
theorem scan_write_leading (offset : Nat) (items : List Item) {rest : List UInt8}
    (more : rest ≠ []) (sound : ∀ item ∈ items, item.Sound) :
    (Layout.scan none offset (write items ++ rest)).leading =
      items.flatMap (Item.fields · false) ++
        (Layout.scan none (offset + (write items).length) rest).leading := by
  induction items generalizing offset with
  | nil => rfl
  | cons item items ih =>
    obtain ⟨first, sound⟩ := List.forall_mem_cons.mp sound
    have onward := ih (offset + item.bytes.length) sound
    have inner : (List.flatMap Item.bytes items ++ rest).isEmpty = false := by simp [more]
    rw [write, List.flatMap_cons, List.append_assoc, scan_item offset item _ first.word,
      (first.layout _ _ _).2, inner, List.flatMap_cons, List.append_assoc, List.length_append,
      ← Nat.add_assoc]
    exact congrArg _ onward

/-- A row of sound items is laid out as its fields. -/
theorem scan_write (offset : Nat) (items : List Item) (sound : ∀ item ∈ items, item.Sound) :
    (Layout.scan none offset (write items)).fault? = none ∧
      (Layout.scan none offset (write items)).leading = expand items := by
  constructor
  · rw [← List.append_nil (write items), scan_write_fault offset items [] sound]
    rfl
  · induction items generalizing offset with
    | nil => rfl
    | cons item items ih =>
      obtain ⟨first, sound⟩ := List.forall_mem_cons.mp sound
      -- Items are never empty, so an item is the last just when no byte follows it.
      have last : (write items).isEmpty = items.isEmpty := by
        cases items with
        | nil => rfl
        | cons next items =>
          rw [write, List.flatMap_cons, Item.bytes, List.append_assoc]
          cases spell next.digits <;> rfl
      rw [write, List.flatMap_cons, scan_item offset item _ first.word,
        (first.layout _ _ _).2, expand, ← last]
      exact congrArg _ (ih (offset + item.bytes.length) sound)

/-- The digits at the front of a row of bytes. -/
theorem exists_digits (bytes : List UInt8) :
    ∃ digits rest, bytes = spell digits ++ rest ∧
      ∀ letter ∈ rest.head?, ∀ digit, letter ≠ digitByte digit := by
  induction bytes with
  | nil => exact ⟨[], [], rfl, fun _ found => nomatch found⟩
  | cons byte bytes ih =>
    cases read : Layout.digit? byte with
    | none =>
      refine ⟨[], byte :: bytes, rfl, ?_⟩
      intro letter first
      cases first
      exact digit?_eq_none_iff.mp read
    | some value =>
      obtain ⟨digits, rest, rfl, noDigit⟩ := ih
      obtain ⟨digit, rfl, _⟩ := digit?_eq_some read
      exact ⟨digit :: digits, rest, rfl, noDigit⟩

/-- Bytes begin with a sound item or with a fault. -/
theorem item_or_fault (offset : Nat) {bytes : List UInt8} (begun : bytes ≠ []) :
    (∃ item rest, bytes = Item.bytes item ++ rest ∧ item.Sound) ∨
      ∃ error, Fault offset bytes error := by
  obtain ⟨digits, rest, rfl, noDigit⟩ := exists_digits bytes
  by_cases word : numeral digits < UInt64.size
  · cases rest with
    | nil =>
      rw [List.append_nil] at begun ⊢
      have counted : digits ≠ [] := fun none => begun (congrArg spell none)
      exact .inr ⟨_, .danglingCount counted word⟩
    | cons letter rest =>
      cases known : Tag.ofByte? letter with
      | none =>
        exact .inr ⟨_, .unknownTag word (noDigit letter rfl) (Tag.ofByte?_eq_none_iff.mp known)⟩
      | some tag =>
        let item : Item := ⟨digits, letter, tag, Tag.ofByte?_eq_some_iff.mp known⟩
        have split : spell digits ++ letter :: rest = item.bytes ++ rest := by
          rw [Item.bytes, List.append_assoc]
          rfl
        rw [split]
        by_cases empty : tag = .fixedText ∧ item.count < 1
        · exact .inr ⟨_, .emptyText empty.1 empty.2⟩
        · by_cases wide : tag = .bits ∧ (item.count < 1 ∨ 8 < item.count)
          · exact .inr ⟨_, .bitCount wide.1 word wide.2⟩
          · refine .inl ⟨item, rest, rfl, word, ?_, ?_⟩
            · intro text
              exact Nat.le_of_not_lt fun none => empty ⟨text, none⟩
            · intro bits
              have inside : ¬(item.count < 1 ∨ 8 < item.count) := fun out => wide ⟨bits, out⟩
              omega
  · exact .inr ⟨_, .countOverflow (Nat.le_of_not_lt word)⟩

/-- Every row of bytes is a row of sound items or has a leftmost fault. -/
theorem items_or_leftmost (offset : Nat) (bytes : List UInt8) :
    (∃ items, bytes = write items ∧ ∀ item ∈ items, item.Sound) ∨
      ∃ error, Leftmost offset bytes error := by
  induction left : bytes.length using Nat.strongRecOn generalizing offset bytes with
  | ind length ih =>
    by_cases done : bytes = []
    · exact .inl ⟨[], done, fun _ found => (nomatch found)⟩
    · rcases item_or_fault offset done with ⟨item, rest, rfl, sound⟩ | ⟨error, fault⟩
      · have shorter : rest.length < length := by
          rw [← left, Item.bytes, List.length_append, List.length_append, List.length_singleton]
          omega
        rcases ih rest.length shorter (offset + item.bytes.length) rest rfl with
          ⟨items, rfl, all⟩ | ⟨error, earlier, later, rfl, all, fault⟩
        · exact .inl ⟨item :: items, rfl, List.forall_mem_cons.mpr ⟨sound, all⟩⟩
        · refine .inr ⟨error, item :: earlier, later, ?_, List.forall_mem_cons.mpr ⟨sound, all⟩, ?_⟩
          · rw [write, write, List.flatMap_cons, List.append_assoc]
          · rw [write, List.flatMap_cons, List.length_append, ← Nat.add_assoc]
            exact fault
      · exact .inr ⟨error, [], bytes, rfl, fun _ found => (nomatch found), fault⟩

/-- The scan finds no fault just in rows of sound items. -/
theorem scan_sound_iff (offset : Nat) (bytes : List UInt8) (all : List Field) :
    ((Layout.scan none offset bytes).fault? = none ∧
        (Layout.scan none offset bytes).leading = all) ↔
      ∃ items, bytes = write items ∧ (∀ item ∈ items, item.Sound) ∧ expand items = all := by
  constructor
  · rintro ⟨whole, rfl⟩
    rcases items_or_leftmost offset bytes with ⟨items, rfl, sound⟩ |
      ⟨error, earlier, rest, rfl, sound, fault⟩
    · exact ⟨items, rfl, sound, (scan_write offset items sound).2.symm⟩
    · rw [scan_write_fault offset earlier rest sound, (scan_fault fault).1] at whole
      cases whole
  · rintro ⟨items, rfl, sound, rfl⟩
    exact scan_write offset items sound

/-- The fault that the scan finds first is the leftmost one. -/
theorem scan_fault_iff (offset : Nat) (bytes : List UInt8) (error : Error) :
    (Layout.scan none offset bytes).fault? = some error ↔ Leftmost offset bytes error := by
  constructor
  · intro found
    rcases items_or_leftmost offset bytes with ⟨items, rfl, sound⟩ | ⟨first, leftmost⟩
    · rw [(scan_write offset items sound).1] at found
      cases found
    · obtain ⟨earlier, rest, rfl, sound, fault⟩ := leftmost
      rw [scan_write_fault offset earlier rest sound, (scan_fault fault).1] at found
      cases found
      exact ⟨earlier, rest, rfl, sound, fault⟩
  · rintro ⟨earlier, rest, rfl, sound, fault⟩
    rw [scan_write_fault offset earlier rest sound, (scan_fault fault).1]

/-- The bytes of a descriptor. An empty one stands for raw bytes. -/
def spelling (text : String) : List UInt8 := Text.bytes (if text = "" then "u" else text)

/-- A mark of byte order as it is known from other descriptor languages. -/
def OrderMark (byte : UInt8) : Prop :=
  Char.ofNat byte.toNat = '@' ∨ Char.ofNat byte.toNat = '<' ∨ Char.ofNat byte.toNat = '>'

/-- The offset at which the items of a descriptor begin, and their bytes. One leading dot is
passed over. -/
def afterDot : List UInt8 → Nat × List UInt8
  | [] => (0, [])
  | first :: rest => if Char.ofNat first.toNat = '.' then (1, rest) else (0, first :: rest)

theorem spelling_ne_nil (text : String) : spelling text ≠ [] := by
  unfold spelling
  split
  · decide
  · rename_i some
    cases chars : text.toList with
    | nil => exact absurd (String.toList_eq_nil_iff.mp chars) some
    | cons c rest =>
      rw [Text.bytes, chars, Text.utf8, List.flatMap_cons]
      exact List.append_ne_nil_of_left_ne_nil String.utf8EncodeChar_ne_nil _

/-- A descriptor that is not refused outright is the scan of what follows its dot. -/
theorem ofText_cases (text : String) :
    (∃ mark rest, spelling text = mark :: rest ∧ OrderMark mark ∧
        Layout.ofText text = .error (.byteOrder mark)) ∨
      (∀ first ∈ (spelling text).head?, ¬OrderMark first) ∧
        ((afterDot (spelling text)).2 = [] ∧ Layout.ofText text = .error (.noFields 1) ∨
          (afterDot (spelling text)).2 ≠ [] ∧ Layout.ofText text =
            .ok (Layout.scan none (afterDot (spelling text)).1 (afterDot (spelling text)).2)) := by
  have bytes : Text.bytes (if text.isEmpty then Layout.defaultText else text) = spelling text := by
    simp only [spelling, String.isEmpty_iff]
    rfl
  rw [Layout.ofText, bytes]
  cases spelt : spelling text with
  | nil => exact absurd spelt (spelling_ne_nil text)
  | cons first rest =>
    have apart : ∀ c, Char.ofNat first.toNat = c → c ≠ '@' → c ≠ '<' → c ≠ '>' →
        ∀ letter ∈ (first :: rest).head?, ¬OrderMark letter := by
      rintro c rfl at_ less more letter ⟨⟩ (mark | mark | mark)
      · exact at_ mark
      · exact less mark
      · exact more mark
    unfold afterDot
    simp only
    split
    · exact .inl ⟨first, rest, rfl, .inl ‹_›, rfl⟩
    · exact .inl ⟨first, rest, rfl, .inr (.inl ‹_›), rfl⟩
    · exact .inl ⟨first, rest, rfl, .inr (.inr ‹_›), rfl⟩
    · rename_i dot
      refine .inr ⟨apart '.' dot (by decide) (by decide) (by decide), ?_⟩
      rw [if_pos dot]
      cases rest with
      | nil => exact .inl ⟨rfl, rfl⟩
      | cons next rest => exact .inr ⟨List.cons_ne_nil next rest, rfl⟩
    · rename_i at_ less more dot
      refine .inr ⟨apart _ rfl at_ less more, .inr ?_⟩
      rw [if_neg dot]
      exact ⟨List.cons_ne_nil first rest, rfl⟩

/-- A descriptor in the grammar: sound items, at least one of them, behind a dot that may
stand there or not. -/
structure Written (text : String) (items : List Item) : Prop where
  unmarked : ∀ first ∈ (spelling text).head?, ¬OrderMark first
  begun : (afterDot (spelling text)).2 ≠ []
  spelt : (afterDot (spelling text)).2 = write items
  sound : ∀ item ∈ items, item.Sound

/-- What is wrong with a descriptor that is not in the grammar. -/
inductive Malformed (text : String) : Error → Prop where
  | byteOrder (spelt : spelling text = mark :: rest) (marked : OrderMark mark) :
      Malformed text (.byteOrder mark)
  | noFields (unmarked : ∀ first ∈ (spelling text).head?, ¬OrderMark first)
      (bare : (afterDot (spelling text)).2 = []) : Malformed text (.noFields 1)
  | item (unmarked : ∀ first ∈ (spelling text).head?, ¬OrderMark first)
      (begun : (afterDot (spelling text)).2 ≠ [])
      (leftmost : Leftmost (afterDot (spelling text)).1 (afterDot (spelling text)).2 error) :
      Malformed text error

theorem fields_eq_ok_iff_written (text : String) (all : List Field) :
    fields text = .ok all ↔ ∃ items, Written text items ∧ expand items = all := by
  unfold fields
  rcases ofText_cases text with ⟨mark, rest, spelt, marked, refused⟩ |
    ⟨unmarked, ⟨bare, refused⟩ | ⟨begun, opened⟩⟩
  · rw [refused]
    refine ⟨fun read => (nomatch read), ?_⟩
    rintro ⟨items, written, _⟩
    exact absurd marked (written.unmarked mark (by rw [spelt]; rfl))
  · rw [refused]
    refine ⟨fun read => (nomatch read), ?_⟩
    rintro ⟨items, written, _⟩
    exact absurd bare written.begun
  · rw [opened]
    refine (Layout.fields_eq_ok_iff _ all).trans ((scan_sound_iff _ _ all).trans ?_)
    constructor
    · rintro ⟨items, spelt, sound, expanded⟩
      exact ⟨items, ⟨unmarked, begun, spelt, sound⟩, expanded⟩
    · rintro ⟨items, written, expanded⟩
      exact ⟨items, written.spelt, written.sound, expanded⟩

theorem fields_eq_error_iff_malformed (text : String) (error : Error) :
    fields text = .error error ↔ Malformed text error := by
  unfold fields
  rcases ofText_cases text with ⟨mark, rest, spelt, marked, refused⟩ |
    ⟨unmarked, ⟨bare, refused⟩ | ⟨begun, opened⟩⟩
  · have marks : ∀ first ∈ (spelling text).head?, OrderMark first := by
      rw [spelt]
      rintro first ⟨⟩
      exact marked
    rw [refused]
    constructor
    · intro failed
      cases failed
      exact .byteOrder spelt marked
    · intro malformed
      cases malformed with
      | byteOrder again _ =>
        cases spelt.symm.trans again
        rfl
      | noFields unmarked | item unmarked =>
        exact absurd marked (unmarked mark (by rw [spelt]; rfl))
  · rw [refused]
    constructor
    · intro failed
      cases failed
      exact .noFields unmarked bare
    · intro malformed
      cases malformed with
      | byteOrder spelt marked => exact absurd marked (unmarked _ (by rw [spelt]; rfl))
      | noFields => rfl
      | item _ begun => exact absurd bare begun
  · rw [opened]
    refine (Layout.fields_eq_error_iff _ error).trans ((scan_fault_iff _ _ error).trans ?_)
    constructor
    · exact .item unmarked begun
    · intro malformed
      cases malformed with
      | byteOrder spelt marked => exact absurd marked (unmarked _ (by rw [spelt]; rfl))
      | noFields _ bare => exact absurd bare begun
      | item _ _ leftmost => exact leftmost

/-- A number in decimal is a row of digits that stands for it. -/
theorem toDigits_spelt (n : Nat) :
    ∃ digits : List (Fin 10), digits ≠ [] ∧ Text.utf8 (Nat.toDigits 10 n) = spell digits ∧
      numeral digits = n := by
  have single : ∀ digit : Fin 10,
      Text.utf8 [Nat.digitChar digit.val] = spell [digit] := by decide
  induction n using Nat.strongRecOn with
  | ind n ih =>
    by_cases small : n < 10
    · refine ⟨[⟨n, small⟩], List.cons_ne_nil _ _, ?_, ?_⟩
      · rw [Nat.toDigits_of_lt_base small]
        exact single ⟨n, small⟩
      · simp [numeral, extend]
    · obtain ⟨digits, _, spelt, value⟩ := ih (n / 10) (by omega)
      have last : n % 10 < 10 := Nat.mod_lt n (by decide)
      refine ⟨digits ++ [⟨n % 10, last⟩], by simp, ?_, ?_⟩
      · have front : Text.utf8 (Nat.toDigits 10 (n / 10) ++ [(n % 10).digitChar]) =
            Text.utf8 (Nat.toDigits 10 (n / 10)) ++ Text.utf8 [(n % 10).digitChar] :=
          List.flatMap_append
        rw [Nat.toDigits_of_base_le (by decide) (Nat.le_of_not_lt small), front, spelt,
          single ⟨n % 10, last⟩, spell, spell, spell, List.map_append]
      · rw [numeral, extend, List.foldl_append]
        change numeral digits * 10 + n % 10 = n
        rw [value]
        exact Nat.div_add_mod' n 10

/-- A count in decimal and a letter are a descriptor of one item. -/
theorem fields_counted {letter : String} {byte : UInt8} {tag : Tag} (count : Nat)
    (spelt : Text.bytes letter = [byte]) (known : Tag.ofByte? byte = some tag) :
    ∃ item : Item, item.tag = tag ∧ item.count? = some count ∧
      (item.Sound → fields (toString count ++ letter) = .ok (item.fields true)) := by
  obtain ⟨digits, counted, decimal, value⟩ := toDigits_spelt count
  let item : Item := ⟨digits, byte, tag, Tag.ofByte?_eq_some_iff.mp known⟩
  have number : item.count? = some count := by
    rw [Item.count?, if_neg counted, value]
  refine ⟨item, rfl, number, ?_⟩
  intro sound
  have whole : spelling (toString count ++ letter) = spell digits ++ [byte] := by
    have text : toString count ++ letter ≠ "" := by
      intro none
      have chars := congrArg String.toList none
      simp [Nat.toDigits_ne_nil] at chars
    rw [spelling, if_neg text, Text.bytes, String.toList_append, Nat.toString_eq_repr,
      Nat.repr_eq_ofList_toDigits, String.toList_ofList, ← decimal, ← spelt]
    exact List.flatMap_append
  have digit : ∀ digit : Fin 10, ¬OrderMark (digitByte digit) ∧
      Char.ofNat (digitByte digit).toNat ≠ '.' := by
    unfold OrderMark
    decide
  refine (fields_eq_ok_iff_written _ _).mpr ⟨[item], ?_, List.append_nil _⟩
  cases digits with
  | nil => exact absurd rfl counted
  | cons first rest =>
    have bare : (afterDot (spelling (toString count ++ letter))).2 =
        spell (first :: rest) ++ [byte] := by
      rw [whole, spell, List.map_cons, List.cons_append, afterDot, if_neg (digit first).2]
    refine ⟨?_, ?_, ?_, ?_⟩
    · rw [whole]
      rintro mark ⟨⟩
      exact (digit first).1
    · rw [bare]
      exact List.cons_ne_nil _ _
    · rw [bare]
      exact (List.append_nil _).symm
    · exact List.forall_mem_singleton.mpr sound

/-- A descriptor is read just if it is in the grammar, and then into the fields that its
items stand for, of which those that carry their length have no size. Any other descriptor
is an invalid format. The fault that is named is a mark of byte order, the want of fields, or
the leftmost fault among the items, which has its offset at the first digit of a count that
is out of range or has no letter behind it, and at the letter otherwise. -/
theorem fields_follow_grammar (text : String) :
    (∀ all, (Cursor.ofText text).bind Cursor.fields = .ok all ↔
      ∃ items, Written text items ∧ expand items = all) ∧
    (∀ all, (Cursor.ofText text).bind Cursor.fields = .ok all →
      ∀ field ∈ all, field.tag = .sizedRaw → field.sized = false) ∧
    (∀ error, (Cursor.ofText text).bind Cursor.fields = .error error ↔ Malformed text error) ∧
    (∀ error, (Cursor.ofText text).bind Cursor.fields = .error error →
      error.report.kind = .invalidFormat ∧ error.report.offset = some error.offset) := by
  have same : (Cursor.ofText text).bind Cursor.fields = fields text := by
    rw [Cursor.ofText, fields]
    cases Layout.ofText text <;> rfl
  rw [same]
  refine ⟨fields_eq_ok_iff_written text, ?_, fields_eq_error_iff_malformed text, ?_⟩
  · intro all read field found carries
    have formed := (fields_arranged read).wellFormed field found
    rw [Field.WellFormed, carries] at formed
    exact formed
  · exact fun error _ => ⟨rfl, rfl⟩

/-- A dot, zeros in front of a count, scalars that are repeated or left out, and raw bytes
that carry their length but for the last. -/
example : fields ".002h0iuU3uU" =
    .ok [.ofScalar (.int .w16), .ofScalar (.int .w16), ⟨.sizedRaw, 1, false⟩,
      ⟨.sizedRaw, 1, false⟩, ⟨.raw, 3, true⟩, ⟨.raw, 1, false⟩] := by
  with_unfolding_all rfl

/-- A count out of range is at fault before the letter behind it. -/
example : fields ".q18446744073709551616?" = .error (.countOverflow 2) ∧
    fields "S9t" = .error (.bitCount 2) ∧ fields "B12" = .error (.danglingCount 1) := by
  refine ⟨?_, ?_, ?_⟩ <;> with_unfolding_all rfl

end Descriptor

end OrderPack
