import OrderPack.Proofs.Descriptor.Bookmark
import OrderPack.Proofs.Reader

/-! Reading a descriptor at an offset of its bytes, in the arithmetic of machine words. A count
may be out of range, and this is found out as it is read; one that is not is a word, and less
one it is how many copies are still due. Offsets do not go past the end. So nothing stops the
reading, and it finds what a bookmark finds at the same place. -/
namespace OrderPack

theorem Word.eq_of_add? (sum : Word.add? a b = some c) : c = a + b := by
  rw [Word.add?] at sum
  split at sum
  · exact (Option.some.inj sum).symm
  · cases sum

namespace Bookmark

/-- The digits of a count from an offset on. Only a count that is out of range is foreseen. -/
def readDigitsAt? (bytes : List UInt8) (first value offset : Nat) :
    Option (Except Descriptor.Error Nat × Reader) :=
  match _here : bytes[offset]? with
  | none => some (.ok value, Reader.ofBuffer bytes offset)
  | some byte =>
    if (Layout.digit? byte).isSome then
      match Word.sub? byte.toNat 48 with
      | none => none
      | some digit =>
        match (Word.mul? value 10).bind (Word.add? · digit) with
        | none => some (.error (.countOverflow first), Reader.ofBuffer bytes offset)
        | some value =>
          match _next : Word.add? offset 1 with
          | none => none
          | some next => readDigitsAt? bytes first value next
    else some (.ok value, Reader.ofBuffer bytes offset)
termination_by bytes.length - offset
decreasing_by
  obtain ⟨inside, _⟩ := List.getElem?_eq_some_iff.mp _here
  have onward := Word.eq_of_add? _next
  omega

/-- The count in front of an item, if there is one. -/
def readCountAt? (bytes : List UInt8) (offset : Nat) :
    Option (Except Descriptor.Error (Option Nat) × Reader) :=
  match bytes[offset]? with
  | none => some (.ok none, Reader.ofBuffer bytes offset)
  | some byte =>
    if (Layout.digit? byte).isSome then
      (readDigitsAt? bytes offset 0 offset).map fun (answer, after) => (answer.map some, after)
    else some (.ok none, Reader.ofBuffer bytes offset)

/-- An item whose letter stands at an offset. Whether the letter is the last byte is seen from
where the last byte stands. -/
def readLetterAt? (bytes : List UInt8) (first : Nat) (count : Option Nat) (offset : Nat) :
    Option Found :=
  match bytes[offset]? with
  | none => some (.fault (.danglingCount first) (Reader.ofBuffer bytes offset))
  | some letter =>
    match Tag.ofByte? letter with
    | none => some (.fault (.unknownTag offset letter) (Reader.ofBuffer bytes offset))
    | some (.scalar scalar) => do
      let next ← Word.add? offset 1
      if count.getD 1 = 0 then return .nothing (Reader.ofBuffer bytes next)
      else
        let due ← Word.sub? (count.getD 1) 1
        return .copies scalar due (Reader.ofBuffer bytes next)
    | some tag => do
      let last ← Word.sub? bytes.length 1
      match sizedField offset count tag (offset == last) with
      | .error error => return .fault error (Reader.ofBuffer bytes offset)
      | .ok field =>
        let next ← Word.add? offset 1
        return .single field (Reader.ofBuffer bytes next)

def readItemAt? (bytes : List UInt8) (offset : Nat) : Option Found := do
  match ← readCountAt? bytes offset with
  | (.error error, after) => return .fault error after
  | (.ok count, after) => readLetterAt? bytes offset count after.offset

theorem readDigitsAt?_onward {answer : Except Descriptor.Error Nat} {after : Reader}
    (read : readDigitsAt? bytes first value offset = some (answer, after)) :
    offset ≤ after.offset := by
  fun_induction readDigitsAt? bytes first value offset with
  | case1 | case3 | case6 =>
    cases read
    exact Nat.le_refl _
  | case2 | case4 => cases read
  | case5 _ _ _ _ _ _ _ _ _ _ next ih =>
    have onward := ih read
    have step := Word.eq_of_add? next
    omega

theorem readCountAt?_onward {answer : Except Descriptor.Error (Option Nat)} {after : Reader}
    (read : readCountAt? bytes offset = some (answer, after)) : offset ≤ after.offset := by
  rw [readCountAt?] at read
  split at read
  · cases read
    exact Nat.le_refl _
  · split at read
    · obtain ⟨⟨digits, behind⟩, found, same⟩ := Option.map_eq_some_iff.mp read
      cases same
      exact readDigitsAt?_onward found
    · cases read
      exact Nat.le_refl _

/-- An item that is not at fault ends behind a letter of the descriptor. -/
theorem readLetterAt?_onward {found : Found}
    (read : readLetterAt? bytes first count offset = some found)
    (passed : ∀ error after, found ≠ .fault error after) :
    offset < bytes.length ∧ offset < found.place.offset := by
  rw [readLetterAt?] at read
  split at read
  · cases read
    exact absurd rfl (passed _ _)
  · rename_i letter here
    obtain ⟨inside, _⟩ := List.getElem?_eq_some_iff.mp here
    refine ⟨inside, ?_⟩
    split at read
    · cases read
      exact absurd rfl (passed _ _)
    · obtain ⟨next, step, read⟩ := Option.bind_eq_some_iff.mp read
      have onward := Word.eq_of_add? step
      split at read
      · cases read
        simp only [Found.place, Reader.offset_ofBuffer]
        omega
      · obtain ⟨due, _, read⟩ := Option.bind_eq_some_iff.mp read
        cases read
        simp only [Found.place, Reader.offset_ofBuffer]
        omega
    · obtain ⟨last, _, read⟩ := Option.bind_eq_some_iff.mp read
      split at read
      · cases read
        exact absurd rfl (passed _ _)
      · obtain ⟨next, step, read⟩ := Option.bind_eq_some_iff.mp read
        have onward := Word.eq_of_add? step
        cases read
        simp only [Found.place, Reader.offset_ofBuffer]
        omega

theorem readItemAt?_onward {found : Found} (read : readItemAt? bytes offset = some found)
    (passed : ∀ error after, found ≠ .fault error after) :
    offset < bytes.length ∧ offset < found.place.offset := by
  obtain ⟨⟨answer, after⟩, counted, read⟩ := Option.bind_eq_some_iff.mp read
  have behind := readCountAt?_onward counted
  cases answer with
  | error error =>
    cases read
    exact absurd rfl (passed _ _)
  | ok count =>
    have letter := readLetterAt?_onward read passed
    omega

/-- Items are read until one of them has a field, or something is at fault. -/
def nextItemAt? (bytes : List UInt8) (bookmark : Bookmark) :
    Option (Except Descriptor.Error (Option Field) × Bookmark) :=
  if bookmark.place.offset = bytes.length then some (.ok none, bookmark)
  else
    match _read : readItemAt? bytes bookmark.place.offset with
    | none => none
    | some (.fault error after) => some (.error error, { bookmark with place := after })
    | some (.nothing beyond) => nextItemAt? bytes { bookmark with place := beyond }
    | some (.single field beyond) =>
      some (.ok (some field), { bookmark with place := beyond, last := some field })
    | some (.copies scalar due beyond) =>
      let field := Field.ofScalar scalar
      some (.ok (some field), { bookmark with place := beyond, due, last := some field })
termination_by bytes.length - bookmark.place.offset
decreasing_by
  have onward := readItemAt?_onward _read (fun _ _ => Found.noConfusion)
  simp only [Found.place] at onward
  omega

/-- The next field, which is a copy of the one that was found last while copies are due. -/
def advanceAt? (bytes : List UInt8) (bookmark : Bookmark) :
    Option (Except Descriptor.Error (Option Field) × Bookmark) :=
  match bookmark.due, bookmark.last with
  | due + 1, some field =>
    (Word.sub? (due + 1) 1).map fun due => (.ok (some field), { bookmark with due })
  | _, _ => nextItemAt? bytes bookmark

theorem nextItemAt?_onward {bookmark beyond : Bookmark} {field : Field}
    (found : nextItemAt? bytes bookmark = some (.ok (some field), beyond)) :
    bookmark.place.offset < bytes.length ∧ bookmark.place.offset < beyond.place.offset := by
  fun_induction nextItemAt? bytes bookmark with
  | case1 | case2 | case3 => cases found
  | case4 bookmark _ beyond read ih =>
    have onward := readItemAt?_onward read (fun _ _ => Found.noConfusion)
    have further := ih found
    simp only [Found.place] at onward further
    omega
  | case5 _ _ _ _ read | case6 _ _ _ _ _ read =>
    have onward := readItemAt?_onward read (fun _ _ => Found.noConfusion)
    obtain ⟨_, rfl⟩ := Prod.mk.inj (Option.some.inj found)
    exact onward

/-- With each field there are fewer bytes ahead, or fewer copies due. -/
theorem advanceAt?_decreases {bookmark beyond : Bookmark} {field : Field}
    (found : advanceAt? bytes bookmark = some (.ok (some field), beyond)) :
    Prod.Lex (· < ·) (· < ·) (bytes.length - beyond.place.offset, beyond.due)
      (bytes.length - bookmark.place.offset, bookmark.due) := by
  rw [advanceAt?] at found
  split at found
  · rename_i due _ counted _
    cases found
    rw [counted]
    exact .right _ (Nat.lt_succ_self due)
  · have onward := nextItemAt?_onward found
    exact .left _ _ (by omega)

/-! Neither reading goes back. -/

theorem readDigits_onward (first value offset : Nat) (bytes : List UInt8) :
    Reader.Onward ⟨offset, bytes⟩ (readDigits first value offset bytes).2 := by
  induction bytes generalizing value offset with
  | nil => exact .refl _
  | cons byte rest ih =>
    have one : Reader.Onward ⟨offset, byte :: rest⟩ ⟨offset + 1, rest⟩ :=
      ⟨1, Nat.succ_le_succ (Nat.zero_le _), rfl⟩
    rw [readDigits]
    cases Layout.digit? byte with
    | none => exact .refl _
    | some digit =>
      simp only
      split
      · exact one.trans (ih _ _)
      · exact .refl _

theorem readCount_onward (place : Reader) : place.Onward (readCount place).2 := by
  rw [readCount]
  cases bytes : place.rest with
  | nil => exact .refl place
  | cons byte rest =>
    simp only
    split
    · rw [← bytes]
      exact readDigits_onward _ _ _ _
    · exact .refl place

theorem readLetter_onward (first : Nat) (count : Option Nat) (after : Reader) :
    after.Onward (readLetter first count after).place := by
  rw [readLetter]
  cases ahead : after.rest with
  | nil => exact .refl after
  | cons letter rest =>
    have one : after.Onward ⟨after.offset + 1, rest⟩ :=
      ⟨1, by rw [ahead]; exact Nat.succ_le_succ (Nat.zero_le _), by rw [ahead]; rfl⟩
    simp only
    repeat' split
    all_goals first
      | exact .refl after
      | exact one

theorem readItem_onward (place : Reader) : place.Onward (readItem place).place := by
  have counted := readCount_onward place
  rw [readItem]
  revert counted
  rcases readCount place with ⟨error | count, after⟩
  · exact id
  · exact fun counted => counted.trans (readLetter_onward _ count after)

theorem nextItem_onward (bookmark : Bookmark) :
    bookmark.place.Onward bookmark.nextItem.2.place := by
  fun_induction nextItem bookmark with
  | case1 => exact .refl _
  | case2 bookmark _ _ _ read | case4 bookmark _ _ _ read | case5 bookmark _ _ _ _ read =>
    have onward := readItem_onward bookmark.place
    rw [read] at onward
    exact onward
  | case3 bookmark _ _ read ih =>
    have onward := readItem_onward bookmark.place
    rw [read] at onward
    exact onward.trans ih

theorem advance_onward (bookmark : Bookmark) : bookmark.place.Onward bookmark.advance.2.place := by
  rw [advance]
  split
  · exact .refl _
  · exact nextItem_onward bookmark

/-- The bookmark stands in these bytes: those that it has not read are ahead. -/
structure StandsIn (bookmark : Bookmark) (bytes : List UInt8) : Prop where
  ahead : bookmark.place = Reader.ofBuffer bytes bookmark.place.offset
  inside : bookmark.place.offset ≤ bytes.length

theorem StandsIn.advance {bookmark : Bookmark} {bytes : List UInt8}
    (stands : bookmark.StandsIn bytes) : bookmark.advance.2.StandsIn bytes := by
  have onward := advance_onward bookmark
  rw [stands.ahead] at onward
  obtain ⟨ahead, _, inside⟩ := onward.ofBuffer stands.inside
  exact ⟨ahead, inside⟩

/-- The bytes behind a dot are those of the descriptor from there on. -/
theorem afterDot_eq (bytes : List UInt8) :
    (Descriptor.afterDot bytes).2 = bytes.drop (Descriptor.afterDot bytes).1 ∧
      (Descriptor.afterDot bytes).1 ≤ bytes.length := by
  cases bytes with
  | nil => exact ⟨rfl, Nat.le_refl _⟩
  | cons first rest =>
    rw [Descriptor.afterDot]
    split
    · exact ⟨rfl, Nat.succ_le_succ (Nat.zero_le _)⟩
    · exact ⟨rfl, Nat.zero_le _⟩

theorem StandsIn.ofText (text : String) : (ofText text).StandsIn (Descriptor.spelling text) := by
  obtain ⟨rest, inside⟩ := afterDot_eq (Descriptor.spelling text)
  exact ⟨congrArg (Reader.mk _) rest, inside⟩

/-- The bytes of a descriptor are those of its text, but for one that says nothing. -/
theorem addressable_spelling {text : String} (readable : Addressable (Text.bytes text)) :
    Addressable (Descriptor.spelling text) := by
  rw [Descriptor.spelling]
  split
  · decide
  · exact readable

section At
variable {bytes : List UInt8}

theorem drop_of_getElem? {byte : UInt8} (here : bytes[offset]? = some byte) :
    bytes.drop offset = byte :: bytes.drop (offset + 1) := by
  obtain ⟨inside, rfl⟩ := List.getElem?_eq_some_iff.mp here
  exact List.drop_eq_getElem_cons inside

/-- The value of a digit is its distance from the first digit. -/
theorem digit?_eq_sub? {byte : UInt8} (isDigit : (Layout.digit? byte).isSome) :
    Layout.digit? byte = Word.sub? byte.toNat 48 := by
  rw [Layout.digit?] at isDigit ⊢
  split at isDigit
  · rename_i inside
    rw [if_pos inside, Word.sub?_of_le inside.1]
  · cases isDigit

theorem readDigitsAt?_eq (addressable : Addressable bytes) (first value offset : Nat) :
    readDigitsAt? bytes first value offset =
      some (readDigits first value offset (bytes.drop offset)) := by
  fun_induction readDigitsAt? bytes first value offset with
  | case1 value offset here =>
    have behind := List.drop_eq_nil_of_le (List.getElem?_eq_none_iff.mp here)
    rw [Reader.ofBuffer, behind, readDigits]
  | case6 value offset byte here noDigit =>
    have none : Layout.digit? byte = none := by simpa using noDigit
    rw [Reader.ofBuffer, drop_of_getElem? here, readDigits, none]
  | case2 value offset byte here isDigit missing =>
    rw [digit?_eq_sub? isDigit, missing] at isDigit
    cases isDigit
  | case3 value offset byte here isDigit digit known outgrown =>
    rw [← digit?_eq_sub? isDigit] at known
    rw [Word.mul?_bind_add?] at outgrown
    rw [Reader.ofBuffer, drop_of_getElem? here, readDigits, known]
    split at outgrown
    · cases outgrown
    · rename_i large
      simp only [if_neg (show ¬value * 10 + digit < Layout.countLimit from large)]
  | case4 value offset byte here isDigit digit known more fits stopped =>
    obtain ⟨inside, _⟩ := List.getElem?_eq_some_iff.mp here
    rw [Word.add?_of_lt (addressable.word (by omega))] at stopped
    cases stopped
  | case5 value offset byte here isDigit digit known more fits next step ih =>
    rw [← digit?_eq_sub? isDigit] at known
    rw [ih, Word.eq_of_add? step, drop_of_getElem? here, readDigits, known]
    rw [Word.mul?_bind_add?] at fits
    split at fits
    · rename_i small
      cases fits
      simp only [if_pos (show value * 10 + digit < Layout.countLimit from small)]
    · cases fits

theorem readCountAt?_eq (addressable : Addressable bytes) (offset : Nat) :
    readCountAt? bytes offset = some (readCount (Reader.ofBuffer bytes offset)) := by
  rw [readCountAt?, readCount, Reader.rest_ofBuffer]
  cases here : bytes[offset]? with
  | none =>
    rw [List.drop_eq_nil_of_le (List.getElem?_eq_none_iff.mp here)]
  | some byte =>
    rw [readDigitsAt?_eq addressable, drop_of_getElem? here]
    simp only
    split <;> rfl

theorem readLetterAt?_eq (addressable : Addressable bytes) (first : Nat) (count : Option Nat)
    (offset : Nat) :
    readLetterAt? bytes first count offset =
      some (readLetter first count (Reader.ofBuffer bytes offset)) := by
  rw [readLetterAt?, readLetter, Reader.rest_ofBuffer]
  cases here : bytes[offset]? with
  | none => rw [List.drop_eq_nil_of_le (List.getElem?_eq_none_iff.mp here)]
  | some letter =>
    obtain ⟨inside, _⟩ := List.getElem?_eq_some_iff.mp here
    have next : Word.add? offset 1 = some (offset + 1) :=
      Word.add?_of_lt (addressable.word (by omega))
    have last : Word.sub? bytes.length 1 = some (bytes.length - 1) := Word.sub?_of_le (by omega)
    have ends : (bytes.drop (offset + 1)).isEmpty = (offset == bytes.length - 1) := by
      rw [Bool.eq_iff_iff, List.isEmpty_iff, List.drop_eq_nil_iff, beq_iff_eq]
      omega
    rw [drop_of_getElem? here]
    simp only [next, last, ends, Option.bind_eq_bind, Option.bind_some]
    cases Tag.ofByte? letter with
    | none => rfl
    | some tag =>
      cases tag with
      | scalar scalar =>
        cases copies : count.getD 1 with
        | zero => rfl
        | succ due => rfl
      | padding | fixedText | text | raw | sizedRaw | bits =>
        simp only [Reader.offset_ofBuffer]
        cases sizedField offset count _ (offset == bytes.length - 1) <;> rfl

theorem readItemAt?_eq (addressable : Addressable bytes) (inside : offset ≤ bytes.length) :
    readItemAt? bytes offset = some (readItem (Reader.ofBuffer bytes offset)) := by
  have onward := readCount_onward (Reader.ofBuffer bytes offset)
  rw [readItemAt?, readCountAt?_eq addressable, readItem]
  simp only [Option.bind_eq_bind, Option.bind_some]
  revert onward
  rcases readCount (Reader.ofBuffer bytes offset) with ⟨error | count, after⟩
  · intro _
    rfl
  · intro onward
    have place := (onward.ofBuffer inside).1
    simp only at place ⊢
    rw [readLetterAt?_eq addressable, ← place]
    rfl

/-- There are no more bytes ahead where the offset is that of the end. -/
theorem StandsIn.ended_iff {bookmark : Bookmark} (stands : bookmark.StandsIn bytes) :
    bookmark.place.rest = [] ↔ bookmark.place.offset = bytes.length := by
  have inside := stands.inside
  rw [stands.ahead, Reader.rest_ofBuffer, Reader.offset_ofBuffer, List.drop_eq_nil_iff]
  omega

/-- What a bookmark does with what it finds. -/
theorem nextItem_eq {bookmark : Bookmark} (begun : bookmark.place.rest ≠ []) :
    bookmark.nextItem =
      match readItem bookmark.place with
      | .fault error after => (.error error, { bookmark with place := after })
      | .nothing beyond => nextItem { bookmark with place := beyond }
      | .single field beyond =>
        (.ok (some field), { bookmark with place := beyond, last := some field })
      | .copies scalar due beyond =>
        (.ok (some (.ofScalar scalar)),
          { bookmark with place := beyond, due, last := some (.ofScalar scalar) }) := by
  rw [nextItem, if_neg begun]
  split <;> rename_i same <;> rw [same]

theorem nextItemAt?_eq (addressable : Addressable bytes) {bookmark : Bookmark}
    (stands : bookmark.StandsIn bytes) : nextItemAt? bytes bookmark = some bookmark.nextItem := by
  have found : ∀ bookmark : Bookmark, bookmark.StandsIn bytes →
      readItemAt? bytes bookmark.place.offset = some (readItem bookmark.place) := by
    intro bookmark stands
    rw [readItemAt?_eq addressable stands.inside, ← stands.ahead]
  fun_induction nextItemAt? bytes bookmark with
  | case1 bookmark done => rw [nextItem, if_pos (stands.ended_iff.mpr done)]
  | case2 bookmark more read =>
    rw [found bookmark stands] at read
    cases read
  | case3 bookmark more _ _ read | case5 bookmark more _ _ read | case6 bookmark more _ _ _ read =>
    rw [found bookmark stands] at read
    rw [nextItem_eq (mt stands.ended_iff.mp more), Option.some.inj read]
  | case4 bookmark more beyond read ih =>
    rw [found bookmark stands] at read
    have onward := readItem_onward bookmark.place
    rw [Option.some.inj read, stands.ahead] at onward
    obtain ⟨ahead, _, inside⟩ := onward.ofBuffer stands.inside
    rw [ih ⟨ahead, inside⟩, nextItem_eq (mt stands.ended_iff.mp more), Option.some.inj read]

/-- Nothing stops a bookmark, and it is taken to where it is taken by reading from the front. -/
theorem advanceAt?_eq (addressable : Addressable bytes) {bookmark : Bookmark}
    (stands : bookmark.StandsIn bytes) : advanceAt? bytes bookmark = some bookmark.advance := by
  obtain ⟨start, place, due, last⟩ := bookmark
  cases due with
  | zero => exact nextItemAt?_eq addressable stands
  | succ due =>
    cases last with
    | none => exact nextItemAt?_eq addressable stands
    | some field => rfl

end At

/-- Every item with a field takes up bytes. -/
theorem nextItem_grows {bookmark : Bookmark} {field : Field}
    (found : bookmark.nextItem.1 = .ok (some field)) :
    bookmark.place.offset < bookmark.nextItem.2.place.offset := by
  have shorter := length_nextItem found
  obtain ⟨count, _, after⟩ := nextItem_onward bookmark
  rw [after] at shorter ⊢
  rw [List.length_drop] at shorter
  simp only
  omega

/-- So does every field but the copies of a scalar. -/
theorem Ahead.grows {bookmark : Bookmark} {layout : Layout} (ahead : Ahead bookmark layout)
    {field : Field} (found : bookmark.advance.1 = .ok (some field)) :
    bookmark.place.offset < bookmark.advance.2.place.offset ∨
      bookmark.advance.2.place.offset = bookmark.place.offset ∧
        ∃ scalar, field = Field.ofScalar scalar := by
  cases ahead with
  | unread start place last => exact .inl (nextItem_grows found)
  | repeating start place due scalar =>
    cases due with
    | zero => exact .inl (nextItem_grows found)
    | succ due =>
      cases found
      exact .inr ⟨rfl, scalar, rfl⟩

/-- Takes a state through the fields ahead of a bookmark. A step may be stopped as well. -/
def walkAt? {σ ε : Type} (bytes : List UInt8) (step? : σ → Field → Option (Except ε σ))
    (fault : σ → Descriptor.Error → ε) (bookmark : Bookmark) (state : σ) : Option (Except ε σ) :=
  match _found : advanceAt? bytes bookmark with
  | none => none
  | some (.error error, _) => some (.error (fault state error))
  | some (.ok none, _) => some (.ok state)
  | some (.ok (some field), beyond) =>
    match step? state field with
    | none => none
    | some (.error error) => some (.error error)
    | some (.ok next) => walkAt? bytes step? fault beyond next
termination_by (bytes.length - bookmark.place.offset, bookmark.due)
decreasing_by exact advanceAt?_decreases _found

/-- Each step in words is the step that it stands for. What it relies on is a matter of the offset
that has been reached, of the fields ahead and of the state, and it sees to it for the next. -/
def Steps {σ τ ε : Type} (bytes : List UInt8) (step? : σ → Field → Option (Except ε σ))
    (step : τ → Field → Except ε τ) (view : σ → τ) (holds : Nat → List Field → σ → Prop) : Prop :=
  ∀ place later field fields state, holds place (field :: fields) state →
    (place < later ∨ later = place ∧ ∃ scalar, field = Field.ofScalar scalar) →
    later ≤ bytes.length →
    ∃ answer, step? state field = some answer ∧ answer.map view = step (view state) field ∧
      ∀ next, answer = .ok next → holds later fields next

section Walk
variable {σ τ ε : Type} {bytes : List UInt8} {step? : σ → Field → Option (Except ε σ)}
  {step : τ → Field → Except ε τ} {view : σ → τ} {holds : Nat → List Field → σ → Prop}

/-- A bookmark comes to the field that the layout answers, and the step can be made there. -/
theorem Steps.advance (steps : Steps bytes step? step view holds) (addressable : Addressable bytes)
    {bookmark beyond : Bookmark} {layout : Layout} {field : Field} {state : σ}
    (stands : bookmark.StandsIn bytes) (ahead : Ahead bookmark layout)
    (begins : holds bookmark.place.offset layout.leading state)
    (found : advanceAt? bytes bookmark = some (.ok (some field), beyond)) :
    layout.advance = (.ok (some field), layout.advance.2) ∧ beyond.StandsIn bytes ∧
      Ahead beyond layout.advance.2 ∧
      ∃ answer, step? state field = some answer ∧ answer.map view = step (view state) field ∧
        ∀ next, answer = .ok next → holds beyond.place.offset layout.advance.2.leading next := by
  rw [advanceAt?_eq addressable stands, Option.some.injEq] at found
  obtain ⟨answered, onward⟩ := ahead.step
  have after := stands.advance
  have grows := ahead.grows (congrArg Prod.fst found)
  rw [found] at answered onward after grows
  rw [Layout.leading_of_advance answered.symm] at begins
  exact ⟨Prod.ext answered.symm rfl, after, onward,
    steps _ _ _ _ _ begins grows after.inside⟩

/-- A walk is not stopped if no step is, and comes to what the steps stand for. -/
theorem Steps.walkAt?_eq (steps : Steps bytes step? step view holds)
    (addressable : Addressable bytes) (fault : τ → Descriptor.Error → ε) {bookmark : Bookmark}
    {layout : Layout} {state : σ} (stands : bookmark.StandsIn bytes)
    (ahead : Ahead bookmark layout) (begins : holds bookmark.place.offset layout.leading state) :
    ∃ answer, walkAt? bytes step? (fault ∘ view) bookmark state = some answer ∧
      answer.map view = layout.foldFields step fault (view state) := by
  fun_induction walkAt? bytes step? (fault ∘ view) bookmark state generalizing layout with
  | case1 bookmark state stopped =>
    rw [advanceAt?_eq addressable stands] at stopped
    cases stopped
  | case2 bookmark state error beyond found | case3 bookmark state beyond found =>
    rw [advanceAt?_eq addressable stands, Option.some.injEq] at found
    have answered := ahead.step.1
    rw [found] at answered
    refine ⟨_, rfl, ?_⟩
    rw [layout.foldFields_eq_advance, ← Prod.eta layout.advance, ← answered]
    rfl
  | case4 bookmark state field beyond found stopped =>
    obtain ⟨_, _, _, _, stepped, _⟩ := steps.advance addressable stands ahead begins found
    cases stopped.symm.trans stepped
  | case5 bookmark state field beyond found error failed =>
    obtain ⟨next, _, _, _, stepped, same, _⟩ :=
      steps.advance addressable stands ahead begins found
    cases failed.symm.trans stepped
    refine ⟨_, rfl, ?_⟩
    rw [layout.foldFields_eq_advance, next]
    simp only [← same]
    rfl
  | case6 bookmark state field beyond found middle stepped ih =>
    obtain ⟨next, after, onward, _, made, same, kept⟩ :=
      steps.advance addressable stands ahead begins found
    cases stepped.symm.trans made
    obtain ⟨answer, walked, passed⟩ := ih after onward (kept middle rfl)
    refine ⟨answer, walked, ?_⟩
    rw [passed, layout.foldFields_eq_advance, next]
    simp only [← same]
    rfl

end Walk

end Bookmark

end OrderPack
