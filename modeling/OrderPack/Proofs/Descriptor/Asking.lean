import OrderPack.Proofs.Descriptor.Addressing

/-! How often a walk asks a layout for a field. A count of a few digits stands for more fields
than could ever be passed, so the fields of a descriptor are no measure of the work. What
bounds it is that the two kinds of fields are paid for in two ways: a field that is written
once has its letter in the descriptor, and a copy of a scalar takes something from the state
of the walk, a byte of the record or a value of the caller. -/
namespace OrderPack

namespace Layout

section Asking
variable {σ ε : Type} (step : σ → Field → Except ε σ) (fault : σ → Descriptor.Error → ε)

/-- Takes a state through what a layout answers, one field at a time, and counts how often the
layout is asked. It is asked once more after the last field, and no more after a failure. -/
def foldAsking (layout : Layout) (state : σ) : Except ε σ × Nat :=
  match _answered : layout.advance with
  | (.error error, _) => (.error (fault state error), 1)
  | (.ok none, _) => (.ok state, 1)
  | (.ok (some field), rest) =>
    match step state field with
    | .error error => (.error error, 1)
    | .ok next =>
      let (answer, asked) := foldAsking rest next
      (answer, asked + 1)
termination_by layout.leading.length
decreasing_by
  have leading := leading_of_advance (congrArg Prod.fst _answered)
  rw [_answered] at leading
  simp [leading]

/-- A walk asks once, and where a field is answered and passed it asks on. -/
theorem foldAsking_eq_advance (layout : Layout) (state : σ) :
    foldAsking step fault layout state =
      match layout.advance with
      | (.error error, _) => (.error (fault state error), 1)
      | (.ok none, _) => (.ok state, 1)
      | (.ok (some field), rest) =>
        match step state field with
        | .error error => (.error error, 1)
        | .ok next =>
          let (answer, asked) := foldAsking step fault rest next
          (answer, asked + 1) := by
  rw [foldAsking]
  split <;> rename_i answered <;> rw [answered]

/-- Counting leaves the walk as it is. -/
theorem foldAsking_fst (layout : Layout) (state : σ) :
    (foldAsking step fault layout state).1 = layout.foldFields step fault state := by
  fun_induction foldAsking step fault layout state with
  | case1 layout state error rest answered | case2 layout state rest answered =>
    rw [foldFields_eq_advance, answered]
  | case3 layout state field rest answered error failed =>
    rw [foldFields_eq_advance, answered]
    simp only [failed, Except.bind]
  | case4 layout state field rest answered next passed answer asked counted ih =>
    rw [foldFields_eq_advance, answered]
    simpa only [passed, Except.bind, counted] using ih

end Asking

/-- How many fields before the first fault are written with a letter of their own. -/
def singles : Layout → Nat
  | .ended | .malformed .. | .stuck _ => 0
  | .single _ rest => rest.singles + 1
  | .repeated _ _ rest => rest.singles

/-- A field that is answered is one of those with a letter of their own, or it is a copy of a
scalar and all of those are still ahead. -/
theorem singles_of_advance {layout rest : Layout} {field : Field}
    (answered : layout.advance = (.ok (some field), rest)) :
    layout.singles = rest.singles + 1 ∨
      layout.singles = rest.singles ∧ ∃ scalar, field = Field.ofScalar scalar := by
  induction layout with
  | ended | malformed | stuck => cases answered
  | single first behind =>
    cases answered
    exact .inl rfl
  | repeated scalar copies behind ih =>
    cases copies with
    | zero => exact ih answered
    | succ copies =>
      cases answered
      exact .inr ⟨rfl, scalar, rfl⟩

theorem singles_ofItem (offset : Nat) (count : Option Nat) (tag : Tag) (last : Bool)
    (rest : Layout) : (ofItem offset count tag last rest).singles ≤ rest.singles + 1 := by
  unfold ofItem
  cases tag with
  | padding | text | raw | sizedRaw => exact Nat.le_refl _
  | fixedText | bits =>
    simp only
    split
    · exact Nat.le_refl _
    · exact Nat.zero_le _
  | scalar scalar => exact Nat.le_succ _

/-- Each of them has a byte of the descriptor. -/
theorem singles_scan (count : Option Count) (offset : Nat) (bytes : List UInt8) :
    (scan count offset bytes).singles ≤ bytes.length := by
  induction bytes generalizing count offset with
  | nil => cases count <;> exact Nat.le_refl _
  | cons byte rest ih =>
    rw [scan, List.length_cons]
    cases digit? byte with
    | some digit =>
      cases count with
      | none => exact Nat.le_succ_of_le (ih _ _)
      | some count =>
        simp only
        split
        · exact Nat.le_succ_of_le (ih _ _)
        · exact Nat.zero_le _
    | none =>
      simp only
      cases Tag.ofByte? byte with
      | none => exact Nat.zero_le _
      | some tag =>
        exact Nat.le_trans (singles_ofItem _ _ _ _ _) (Nat.succ_le_succ (ih none (offset + 1)))

/-- What a walk has left never grows, and each copy of a scalar takes some of it. -/
structure Pays {σ ε : Type} (step : σ → Field → Except ε σ) (left : σ → Nat) : Prop where
  keeps : ∀ {state next : σ} {field : Field}, step state field = .ok next → left next ≤ left state
  spends : ∀ {state next : σ} {scalar : Scalar},
    step state (Field.ofScalar scalar) = .ok next → left next < left state

section Bound
variable {σ ε : Type} {step : σ → Field → Except ε σ} {left : σ → Nat}

/-- A walk asks for each field that is paid for, and once more. -/
theorem Pays.asked (pays : Pays step left) (fault : σ → Descriptor.Error → ε) (layout : Layout)
    (state : σ) :
    (foldAsking step fault layout state).2 ≤ layout.singles + left state + 1 := by
  fun_induction foldAsking step fault layout state with
  | case1 | case2 | case3 => exact Nat.le_add_left 1 _
  | case4 layout state field rest answered next passed answer asked counted ih =>
    simp only [counted] at ih
    have kept := pays.keeps passed
    rcases singles_of_advance answered with letter | ⟨same, scalar, rfl⟩
    · omega
    · have spent := pays.spends passed
      omega

/-- In a descriptor each field is paid for by one of its bytes or by what the walk has left. An
empty descriptor has no byte for the field that it stands for, so passing that one takes a walk
that has something left. -/
theorem Pays.asked_ofText (pays : Pays step left) (fault : σ → Descriptor.Error → ε)
    {text : String} {layout : Layout} (opened : ofText text = .ok layout) (state : σ)
    (whole : ∀ next, step state ⟨.raw, 1, false⟩ = .ok next → 0 < left state) :
    (foldAsking step fault layout state).2 ≤ (Text.bytes text).length + left state + 1 := by
  by_cases empty : text = ""
  · have raw : ofText text = .ok (.single ⟨.raw, 1, false⟩ .ended) := by
      rw [empty]
      rfl
    cases raw.symm.trans opened
    cases passed : step state ⟨.raw, 1, false⟩ with
    | error error => simp [foldAsking, advance, passed]
    | ok next =>
      have some := whole next passed
      simp only [foldAsking, advance, passed]
      omega
  · have spelling : Descriptor.spelling text = Text.bytes text := by
      rw [Descriptor.spelling, if_neg empty]
    have bounded := pays.asked fault layout state
    rcases Descriptor.ofText_cases text with
      ⟨_, _, _, _, refused⟩ | ⟨_, ⟨_, refused⟩ | ⟨_, scanned⟩⟩
    · cases refused.symm.trans opened
    · cases refused.symm.trans opened
    · cases scanned.symm.trans opened
      obtain ⟨behind, _⟩ := Bookmark.afterDot_eq (Descriptor.spelling text)
      have letters := singles_scan none (Descriptor.afterDot (Descriptor.spelling text)).1
        (Descriptor.afterDot (Descriptor.spelling text)).2
      have shorter : (Descriptor.afterDot (Descriptor.spelling text)).2.length ≤
          (Text.bytes text).length := by
        rw [behind, List.length_drop, spelling]
        exact Nat.sub_le _ _
      omega

end Bound

end Layout

end OrderPack
