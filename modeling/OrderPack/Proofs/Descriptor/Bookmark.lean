import OrderPack.Proofs.Descriptor.Grammar
import OrderPack.Reader

/-! A cursor by its place in the bytes of a descriptor. All it holds is the bytes it has not
read, how many copies of a scalar are still due, and the field that it found last. It is not
told what lies ahead: it reads the next item when it is asked to, and may stop in the midst
of one, at a digit or behind a count that is at fault. What it answers is the same as what
the layout of the bytes ahead answers, in every such state and also after a fault, and where
it stands next is where the layout goes on. -/
namespace OrderPack

/-- The fields of a layout are what it answers, one after the other. -/
theorem Layout.fields_eq_advance (layout : Layout) :
    layout.fields =
      match layout.advance with
      | (.error error, _) => .error error
      | (.ok none, _) => .ok []
      | (.ok (some field), rest) => rest.fields.map (field :: ·) := by
  induction layout with
  | ended | single | malformed | stuck => simp [fields, advance]
  | repeated scalar copies rest ih =>
    cases copies with
    | zero =>
      have none : (Layout.repeated scalar 0 rest).fields = rest.fields := by
        rw [fields]
        cases rest.fields <;> rfl
      rw [none, ih, advance]
    | succ copies =>
      simp only [fields, advance, List.replicate_succ, List.cons_append]
      cases rest.fields <;> rfl

/-- A walk takes its state through what the layout answers. -/
theorem Layout.foldFields_eq_advance {σ ε : Type} (step : σ → Field → Except ε σ)
    (fault : σ → Descriptor.Error → ε) (layout : Layout) (state : σ) :
    layout.foldFields step fault state =
      match layout.advance with
      | (.error error, _) => .error (fault state error)
      | (.ok none, _) => .ok state
      | (.ok (some field), rest) => (step state field).bind (rest.foldFields step fault) := by
  induction layout generalizing state with
  | ended | malformed | stuck => rfl
  | single field rest =>
    simp only [foldFields, advance]
    cases step state field <;> rfl
  | repeated scalar copies rest ih =>
    cases copies with
    | zero =>
      rw [advance, ← ih]
      rfl
    | succ copies =>
      simp only [foldFields, advance, repeatStep]
      cases step state (Field.ofScalar scalar) <;> rfl

/-- The answers of a layout are its leading fields, and then its fault or the end. -/
theorem Layout.advance_leading (layout : Layout) :
    match layout.leading with
    | [] =>
      match layout.fault? with
      | none => layout.advance = (.ok none, .ended)
      | some error => layout.advance.1 = .error error
    | field :: rest =>
      layout.advance.1 = .ok (some field) ∧ layout.advance.2.leading = rest ∧
        layout.advance.2.fault? = layout.fault? := by
  induction layout with
  | ended | single | malformed | stuck => simp [leading, fault?, advance]
  | repeated scalar copies rest ih =>
    cases copies with
    | zero => simpa [leading, fault?, advance] using ih
    | succ copies => simp [leading, fault?, advance, List.replicate_succ]

/-- A field that is answered is the first of those ahead. -/
theorem Layout.leading_of_advance {layout : Layout} {field : Field}
    (answered : layout.advance.1 = .ok (some field)) :
    layout.leading = field :: layout.advance.2.leading := by
  have next := layout.advance_leading
  cases left : layout.leading with
  | nil =>
    cases fault : layout.fault? with
    | none => simp [left, fault, answered, Prod.ext_iff] at next
    | some error => simp [left, fault, answered] at next
  | cons first rest =>
    rw [left] at next
    obtain ⟨same, onward, _⟩ := next
    cases same.symm.trans answered
    rw [onward]

/-- Where a descriptor begins, the place that has been reached in it, the copies that are due
before anything is read there, and the field that was found last. -/
structure Bookmark where
  start : Reader
  place : Reader
  due : Nat
  last : Option Field

namespace Bookmark

/-- Reads on in a count whose first digit stands at `first`. The place after a count that is
out of range is that of the digit which takes it there. -/
def readDigits (first value offset : Nat) : List UInt8 → Except Descriptor.Error Nat × Reader
  | [] => (.ok value, ⟨offset, []⟩)
  | byte :: rest =>
    match Layout.digit? byte with
    | none => (.ok value, ⟨offset, byte :: rest⟩)
    | some digit =>
      if value * 10 + digit < Layout.countLimit then
        readDigits first (value * 10 + digit) (offset + 1) rest
      else (.error (.countOverflow first), ⟨offset, byte :: rest⟩)

/-- Reads the count in front of an item, if there is one. -/
def readCount (place : Reader) : Except Descriptor.Error (Option Nat) × Reader :=
  match place.rest with
  | [] => (.ok none, place)
  | byte :: _ =>
    if (Layout.digit? byte).isSome then
      let (answer, after) := readDigits place.offset 0 place.offset place.rest
      (answer.map some, after)
    else (.ok none, place)

/-- The field of an item whose count is a size. The letter stands at `offset`. -/
def sizedField (offset : Nat) (count : Option Nat) (tag : Tag) (last : Bool) :
    Except Descriptor.Error Field :=
  let field : Field := ⟨tag, count.getD 1, count.isSome⟩
  match tag with
  | .fixedText => if field.size < 1 then .error (.emptyText offset) else .ok field
  | .bits => if 1 ≤ field.size ∧ field.size ≤ 8 then .ok field else .error (.bitCount offset)
  | .raw | .sizedRaw =>
    .ok { field with tag := if count.isNone && !last then .sizedRaw else .raw }
  | .padding | .text | .scalar _ => .ok field

/-- Reading digits does not go back. -/
theorem length_readDigits (first value offset : Nat) (bytes : List UInt8) :
    (readDigits first value offset bytes).2.rest.length ≤ bytes.length := by
  induction bytes generalizing value offset with
  | nil => simp [readDigits]
  | cons byte rest ih =>
    rw [readDigits]
    cases Layout.digit? byte with
    | none => simp
    | some digit =>
      by_cases small : value * 10 + digit < Layout.countLimit
      · simp only [small, ↓reduceIte, List.length_cons]
        exact Nat.le_succ_of_le (ih _ _)
      · simp [small]

theorem length_readCount (place : Reader) :
    (readCount place).2.rest.length ≤ place.rest.length := by
  rw [readCount]
  cases bytes : place.rest with
  | nil => simp [bytes]
  | cons byte rest =>
    by_cases counted : (Layout.digit? byte).isSome
    · simp only [counted, ↓reduceIte]
      exact length_readDigits _ _ _ _
    · simp [counted, bytes]

/-- What is found where an item should begin, and the place behind it. -/
inductive Found where
  /-- A letter at fault is not passed, but the count before it is. -/
  | fault (error : Descriptor.Error) (after : Reader)
  /-- A scalar with a count of zero has no field. -/
  | nothing (beyond : Reader)
  | single (field : Field) (beyond : Reader)
  /-- One copy of a scalar, and so many more that are due. -/
  | copies (scalar : Scalar) (due : Nat) (beyond : Reader)

/-- Reads an item whose count, if it has one, begins at `first` and ends before `letter`. -/
def readLetter (first : Nat) (count : Option Nat) (after : Reader) : Found :=
  match after.rest with
  | [] => .fault (.danglingCount first) after
  | letter :: rest =>
    match Tag.ofByte? letter with
    | none => .fault (.unknownTag after.offset letter) after
    | some (.scalar scalar) =>
      match count.getD 1 with
      | 0 => .nothing ⟨after.offset + 1, rest⟩
      | due + 1 => .copies scalar due ⟨after.offset + 1, rest⟩
    | some tag =>
      match sizedField after.offset count tag rest.isEmpty with
      | .error error => .fault error after
      | .ok field => .single field ⟨after.offset + 1, rest⟩

def readItem (place : Reader) : Found :=
  match readCount place with
  | (.error error, after) => .fault error after
  | (.ok count, after) => readLetter place.offset count after

/-- The place that has then been reached. -/
def Found.place : Found → Reader
  | .fault _ place | .nothing place | .single _ place | .copies _ _ place => place

/-- An item that is not at fault takes up bytes, also if it has no field. -/
theorem length_readItem {place : Reader} {found : Found} (read : readItem place = found)
    (passed : ∀ error after, found ≠ .fault error after) :
    found.place.rest.length < place.rest.length := by
  have onward := length_readCount place
  rw [readItem] at read
  rcases counted : readCount place with ⟨error | count, after⟩
  · simp only [counted] at read
    exact absurd read.symm (passed error after)
  · simp only [counted] at read onward
    refine Nat.lt_of_lt_of_le ?_ onward
    rw [readLetter] at read
    cases ahead : after.rest with
    | nil =>
      simp only [ahead] at read
      exact absurd read.symm (passed _ _)
    | cons letter rest =>
      simp only [ahead] at read
      repeat' split at read
      all_goals first
        | exact absurd read.symm (passed _ _)
        | simp [← read, Found.place]

/-- Reads items until one of them has a field, or something is at fault. -/
def nextItem (bookmark : Bookmark) : Except Descriptor.Error (Option Field) × Bookmark :=
  if bookmark.place.rest = [] then (.ok none, bookmark)
  else
    match _read : readItem bookmark.place with
    | .fault error after => (.error error, { bookmark with place := after })
    | .nothing beyond => nextItem { bookmark with place := beyond }
    | .single field beyond =>
      (.ok (some field), { bookmark with place := beyond, last := some field })
    | .copies scalar due beyond =>
      let field := Field.ofScalar scalar
      (.ok (some field), { bookmark with place := beyond, due, last := some field })
termination_by bookmark.place.rest.length
decreasing_by exact length_readItem _read (fun _ _ => Found.noConfusion)

/-- The field that was found last while copies of it are due, and then the next item's. -/
def advance (bookmark : Bookmark) : Except Descriptor.Error (Option Field) × Bookmark :=
  match bookmark.due, bookmark.last with
  | due + 1, some field => (.ok (some field), { bookmark with due })
  | _, _ => bookmark.nextItem

theorem length_nextItem {bookmark : Bookmark} {field : Field}
    (found : bookmark.nextItem.1 = .ok (some field)) :
    bookmark.nextItem.2.place.rest.length < bookmark.place.rest.length := by
  induction left : bookmark.place.rest.length using Nat.strongRecOn generalizing bookmark with
  | ind length ih =>
    subst left
    rw [nextItem] at found ⊢
    by_cases done : bookmark.place.rest = []
    · simp [done] at found
    · rw [if_neg done] at found ⊢
      split at found <;> rename_i read
      · cases found
      · have shorter := length_readItem read (fun _ _ => Found.noConfusion)
        exact Nat.lt_trans (ih _ shorter found rfl) shorter
      · exact length_readItem read (fun _ _ => Found.noConfusion)
      · exact length_readItem read (fun _ _ => Found.noConfusion)

/-- With each field the bytes to be read or the copies due become fewer. -/
theorem advance_decreases {bookmark : Bookmark} {field : Field}
    (found : bookmark.advance.1 = .ok (some field)) :
    Prod.Lex (· < ·) (· < ·) (bookmark.advance.2.place.rest.length, bookmark.advance.2.due)
      (bookmark.place.rest.length, bookmark.due) := by
  rw [advance] at found ⊢
  split
  · rename_i due _ counted _
    rw [counted]
    exact .right _ (Nat.lt_succ_self due)
  · exact .left _ _ (length_nextItem (by simpa using found))

/-- Back to where the descriptor begins. What is due and what was found last are forgotten. -/
def reset (bookmark : Bookmark) : Bookmark :=
  { bookmark with place := bookmark.start, due := 0, last := none }

/-- Takes a bookmark to the end, for the fields that are left or the fault that is met. -/
def collect (bookmark : Bookmark) : Except Descriptor.Error (List Field) :=
  match _found : bookmark.advance with
  | (.error error, _) => .error error
  | (.ok none, _) => .ok []
  | (.ok (some field), beyond) => (collect beyond).map (field :: ·)
termination_by (bookmark.place.rest.length, bookmark.due)
decreasing_by
  have onward := advance_decreases (congrArg Prod.fst _found)
  rw [_found] at onward
  exact onward

/-- All fields are collected by a bookmark of its own, wherever this one stands. -/
def fields (bookmark : Bookmark) : Except Descriptor.Error (List Field) := bookmark.reset.collect

/-- Digits that are read on are those that the scan counts. -/
theorem scan_readDigits (first value offset : Nat) (bytes : List UInt8) :
    match readDigits first value offset bytes with
    | (.ok count, after) =>
      Layout.scan (some ⟨value, first⟩) offset bytes =
          Layout.scan (some ⟨count, first⟩) after.offset after.rest ∧
        ∀ letter ∈ after.rest.head?, Layout.digit? letter = none
    | (.error error, after) =>
      Layout.scan (some ⟨value, first⟩) offset bytes =
        .malformed error (Layout.scan none after.offset after.rest) := by
  induction bytes generalizing value offset with
  | nil => simp [readDigits]
  | cons byte rest ih =>
    rw [readDigits]
    cases read : Layout.digit? byte with
    | none => simp [read]
    | some digit =>
      by_cases small : value * 10 + digit < Layout.countLimit
      · have onward := ih (value * 10 + digit) (offset + 1)
        simpa [small, Layout.scan, read] using onward
      · simp [small, Layout.scan, read]

/-- The count in front of an item is the one that the scan has under way at its letter. -/
theorem scan_readCount (place : Reader) :
    match readCount place with
    | (.ok count, after) =>
      Layout.scan none place.offset place.rest =
          Layout.scan (count.map (⟨·, place.offset⟩)) after.offset after.rest ∧
        (∀ letter ∈ after.rest.head?, Layout.digit? letter = none) ∧
        (count = none → after = place)
    | (.error error, after) =>
      Layout.scan none place.offset place.rest =
        .malformed error (Layout.scan none after.offset after.rest) := by
  obtain ⟨offset, bytes⟩ := place
  cases bytes with
  | nil => simp [readCount]
  | cons byte rest =>
    cases read : Layout.digit? byte with
    | none => simp [readCount, read]
    | some digit =>
      have begun : Layout.scan none offset (byte :: rest) =
          Layout.scan (some ⟨0, offset⟩) offset (byte :: rest) := by
        obtain ⟨small, _, rfl⟩ := Descriptor.digit?_eq_some read
        have word : small.val < Layout.countLimit := Nat.lt_trans small.isLt (by decide)
        simp [Layout.scan, read, word]
      have counted := scan_readDigits offset 0 offset (byte :: rest)
      simp only [readCount, read, Option.isSome_some, ↓reduceIte, begun]
      revert counted
      rcases readDigits offset 0 offset (byte :: rest) with ⟨error | count, after⟩
      · exact id
      · exact fun counted => ⟨counted.1, counted.2, by simp⟩

/-- The layout of the bytes that are still to be read. -/
def unread (place : Reader) : Layout := Layout.scan none place.offset place.rest

/-- What a layout answers where this is found, and how it goes on. -/
def Found.answer : Found → Except Descriptor.Error (Option Field) × Layout
  | .fault error after => (.error error, unread after)
  | .nothing beyond => (unread beyond).advance
  | .single field beyond => (.ok (some field), unread beyond)
  | .copies scalar due beyond =>
    (.ok (some (Field.ofScalar scalar)), .repeated scalar due (unread beyond))

theorem advance_letter (first : Nat) (count : Option Nat) (offset : Nat) (letter : UInt8)
    (rest : List UInt8) (noDigit : Layout.digit? letter = none) :
    (Layout.scan (count.map (⟨·, first⟩)) offset (letter :: rest)).advance =
      (readLetter first count ⟨offset, letter :: rest⟩).answer := by
  have value : (count.map (Layout.Count.mk · first)).map Layout.Count.value = count := by
    cases count <;> rfl
  -- A letter at fault is read once more, now without the count.
  have again := Descriptor.scan_letter none offset letter rest noDigit
  rw [Descriptor.scan_letter _ offset letter rest noDigit, value]
  cases known : Tag.ofByte? letter with
  | none =>
    simp only [known] at again
    simp [readLetter, known, Found.answer, Layout.advance, unread, again]
  | some tag =>
    simp only [known] at again
    cases tag with
    | padding | text | raw | sizedRaw =>
      simp [readLetter, known, sizedField, Found.answer, Layout.ofItem, Layout.advance, unread]
    | fixedText =>
      by_cases empty : count.getD 1 = 0 <;>
        simp [readLetter, known, sizedField, empty, Found.answer, Layout.ofItem, Layout.advance,
          unread, again, Nat.one_le_iff_ne_zero]
    | bits =>
      by_cases inside : 1 ≤ count.getD 1 ∧ count.getD 1 ≤ 8 <;>
        simp [readLetter, known, sizedField, inside, Found.answer, Layout.ofItem, Layout.advance,
          unread, again]
    | scalar scalar =>
      cases copies : count.getD 1 <;>
        simp [readLetter, known, copies, Found.answer, Layout.ofItem, Layout.advance, unread]

/-- What is read where an item should begin is what the layout there answers. -/
theorem advance_unread {place : Reader} (begun : place.rest ≠ []) :
    (unread place).advance = (readItem place).answer := by
  have counted := scan_readCount place
  rw [readItem]
  revert counted
  rcases readCount place with ⟨error | count, offset, ahead⟩
  · intro counted
    simp [unread, counted, Layout.advance, Found.answer]
  · rintro ⟨counted, noDigit, uncounted⟩
    rw [unread, counted]
    cases ahead with
    | nil =>
      cases count with
      | none => exact absurd (congrArg Reader.rest (uncounted rfl)).symm begun
      | some value => simp [readLetter, Found.answer, unread, Layout.scan, Layout.advance]
    | cons letter rest => exact advance_letter _ count offset letter rest (noDigit letter rfl)

/-- What lies ahead of a bookmark. Copies are due of scalars alone. -/
inductive Ahead : Bookmark → Layout → Prop where
  | unread (start place : Reader) (last : Option Field) :
      Ahead ⟨start, place, 0, last⟩ (unread place)
  | repeating (start place : Reader) (due : Nat) (scalar : Scalar) :
      Ahead ⟨start, place, due, some (Field.ofScalar scalar)⟩ (.repeated scalar due (unread place))

theorem nextItem_ahead (start place : Reader) (last : Option Field) :
    (nextItem ⟨start, place, 0, last⟩).1 = (unread place).advance.1 ∧
      Ahead (nextItem ⟨start, place, 0, last⟩).2 (unread place).advance.2 := by
  induction left : place.rest.length using Nat.strongRecOn generalizing place with
  | ind length ih =>
    rw [nextItem]
    by_cases done : place.rest = []
    · have ended : unread place = .ended := by rw [unread, done, Layout.scan]
      have stays := Ahead.unread start place last
      rw [ended] at stays ⊢
      simp [done, Layout.advance, stays]
    · rw [advance_unread done, if_neg done]
      split <;> rename_i read <;> rw [show readItem place = _ from read]
      · exact ⟨rfl, .unread start _ last⟩
      · exact ih _ (left ▸ length_readItem read (fun _ _ => Found.noConfusion)) _ rfl
      · exact ⟨rfl, .unread start _ _⟩
      · exact ⟨rfl, .repeating start _ _ _⟩

/-- A bookmark answers what the layout ahead of it answers, and has the rest of that layout
ahead afterwards. -/
theorem Ahead.step {bookmark : Bookmark} {layout : Layout} (ahead : Ahead bookmark layout) :
    bookmark.advance.1 = layout.advance.1 ∧ Ahead bookmark.advance.2 layout.advance.2 := by
  cases ahead with
  | unread start place last => exact nextItem_ahead start place last
  | repeating start place due scalar =>
    cases due with
    | zero => exact nextItem_ahead start place _
    | succ due => exact ⟨rfl, .repeating start place due scalar⟩

/-- What a bookmark collects are the fields ahead of it. -/
theorem Ahead.collect {bookmark : Bookmark} {layout : Layout} (ahead : Ahead bookmark layout) :
    bookmark.collect = layout.fields := by
  fun_induction Bookmark.collect bookmark generalizing layout with
  | case1 bookmark error beyond found | case2 bookmark beyond found =>
    have answered := ahead.step.1
    rw [found] at answered
    rw [layout.fields_eq_advance, ← Prod.eta layout.advance, ← answered]
  | case3 bookmark field beyond found ih =>
    obtain ⟨answered, onward⟩ := ahead.step
    rw [found] at answered onward
    rw [layout.fields_eq_advance, ← Prod.eta layout.advance, ← answered, ih onward]

theorem start_nextItem (bookmark : Bookmark) : bookmark.nextItem.2.start = bookmark.start := by
  fun_induction nextItem bookmark <;> simp_all

theorem start_advance (bookmark : Bookmark) : bookmark.advance.2.start = bookmark.start := by
  rw [advance]
  split
  · rfl
  · exact start_nextItem bookmark

/-- A bookmark before the first field of a descriptor. -/
def ofText (text : String) : Bookmark :=
  let (offset, bytes) := Descriptor.afterDot (Descriptor.spelling text)
  ⟨⟨offset, bytes⟩, ⟨offset, bytes⟩, 0, none⟩

theorem unread_of_ofText {text : String} {layout : Layout}
    (opened : Layout.ofText text = .ok layout) :
    unread (ofText text).start = layout := by
  rcases Descriptor.ofText_cases text with ⟨_, _, _, _, refused⟩ | ⟨_, ⟨_, refused⟩ | ⟨_, found⟩⟩
  · rw [refused] at opened
    cases opened
  · rw [refused] at opened
    cases opened
  · rw [found] at opened
    exact Except.ok.inj opened

/-- It has the whole descriptor ahead. -/
theorem ahead_of_ofText {text : String} {layout : Layout}
    (opened : Layout.ofText text = .ok layout) : Ahead (ofText text) layout := by
  rw [← unread_of_ofText opened]
  exact .unread _ _ none

end Bookmark

end OrderPack
