import Mathlib.Data.List.Forall2
import OrderPack.Proofs.Descriptor.Bookmark

/-! A cursor is an index into the fields of its descriptor. However a growing number of
cursors are advanced, rewound, copied and asked for all fields, one after the other, they
answer as the indices would. The fields are those before the first fault, if there is one,
and it is the fault that the index behind them answers. What a cursor holds, the layout ahead
of it or its place in the bytes, never shows. -/
namespace OrderPack

/-- What can be done with one cursor. Asking for all fields does not move it. -/
structure Walker (σ : Type) where
  advance : σ → Except Descriptor.Error (Option Field) × σ
  reset : σ → σ
  fields : σ → Except Descriptor.Error (List Field)

def Cursor.walker : Walker Cursor := ⟨Cursor.advance, Cursor.reset, Cursor.fields⟩

def Bookmark.walker : Walker Bookmark := ⟨Bookmark.advance, Bookmark.reset, Bookmark.fields⟩

/-- An index into the rows of a table. It goes on to the next row, but not from a row that
says that no field is left. -/
def indices (row : Nat → Except Descriptor.Error (Option Field))
    (all : Except Descriptor.Error (List Field)) : Walker Nat where
  advance index := (row index, if row index = .ok none then index else index + 1)
  reset _ := 0
  fields _ := all

namespace Walker

/-- What is asked of one of many cursors, which are numbered as they were made. -/
inductive Step where
  | advance (cursor : Nat)
  | reset (cursor : Nat)
  | clone (cursor : Nat)
  | fields (cursor : Nat)

inductive Answer where
  | next (field : Except Descriptor.Error (Option Field))
  | all (fields : Except Descriptor.Error (List Field))
  | done
  /-- No cursor has this number yet. -/
  | absent
  deriving DecidableEq

variable {σ τ : Type}

/-- A copy comes after all other cursors. -/
def perform (walker : Walker σ) (cursors : List σ) : Step → Answer × List σ
  | .advance number =>
    match cursors[number]? with
    | none => (.absent, cursors)
    | some cursor =>
      (.next (walker.advance cursor).1, cursors.set number (walker.advance cursor).2)
  | .reset number =>
    match cursors[number]? with
    | none => (.absent, cursors)
    | some cursor => (.done, cursors.set number (walker.reset cursor))
  | .clone number =>
    match cursors[number]? with
    | none => (.absent, cursors)
    | some cursor => (.done, cursors ++ [cursor])
  | .fields number =>
    match cursors[number]? with
    | none => (.absent, cursors)
    | some cursor => (.all (walker.fields cursor), cursors)

/-- The answers to one step after the other. -/
def answers (walker : Walker σ) (cursors : List σ) : List Step → List Answer
  | [] => []
  | step :: steps =>
    (walker.perform cursors step).1 :: answers walker (walker.perform cursors step).2 steps

/-- Two kinds of cursors keep abreast: they answer alike, and are again abreast after each
step. -/
structure Abreast (related : σ → τ → Prop) (left : Walker σ) (right : Walker τ) : Prop where
  advance : ∀ x y, related x y →
    (left.advance x).1 = (right.advance y).1 ∧ related (left.advance x).2 (right.advance y).2
  reset : ∀ x y, related x y → related (left.reset x) (right.reset y)
  fields : ∀ x y, related x y → left.fields x = right.fields y

theorem forall₂_getElem? {related : σ → τ → Prop} {xs : List σ} {ys : List τ}
    (paired : List.Forall₂ related xs ys) (number : Nat) :
    (xs[number]? = none ∧ ys[number]? = none) ∨
      ∃ x y, xs[number]? = some x ∧ ys[number]? = some y ∧ related x y := by
  induction paired generalizing number with
  | nil => simp
  | cons related _ ih =>
    cases number with
    | zero => exact .inr ⟨_, _, rfl, rfl, related⟩
    | succ number => simpa using ih number

theorem forall₂_set {related : σ → τ → Prop} {xs : List σ} {ys : List τ} {x : σ} {y : τ}
    (paired : List.Forall₂ related xs ys) (number : Nat) (both : related x y) :
    List.Forall₂ related (xs.set number x) (ys.set number y) := by
  induction paired generalizing number with
  | nil => exact .nil
  | cons first rest ih =>
    cases number with
    | zero => exact .cons both rest
    | succ number => exact .cons first (ih number)

section

variable {related : σ → τ → Prop} {left : Walker σ} {right : Walker τ}

/-- One step, on cursors that are abreast pair by pair. -/
theorem Abreast.perform (abreast : Abreast related left right) {xs : List σ} {ys : List τ}
    (paired : List.Forall₂ related xs ys) (step : Step) :
    (left.perform xs step).1 = (right.perform ys step).1 ∧
      List.Forall₂ related (left.perform xs step).2 (right.perform ys step).2 := by
  cases step with
  | advance number =>
    rcases forall₂_getElem? paired number with ⟨noX, noY⟩ | ⟨x, y, hereX, hereY, both⟩
    · simp [Walker.perform, noX, noY, paired]
    · obtain ⟨same, onward⟩ := abreast.advance x y both
      simp [Walker.perform, hereX, hereY, same, forall₂_set paired number onward]
  | reset number =>
    rcases forall₂_getElem? paired number with ⟨noX, noY⟩ | ⟨x, y, hereX, hereY, both⟩
    · simp [Walker.perform, noX, noY, paired]
    · have again := forall₂_set paired number (abreast.reset x y both)
      simp [Walker.perform, hereX, hereY, again]
  | clone number =>
    rcases forall₂_getElem? paired number with ⟨noX, noY⟩ | ⟨x, y, hereX, hereY, both⟩
    · simp [Walker.perform, noX, noY, paired]
    · have grown := List.rel_append paired (.cons both .nil)
      simp [Walker.perform, hereX, hereY, grown]
  | fields number =>
    rcases forall₂_getElem? paired number with ⟨noX, noY⟩ | ⟨x, y, hereX, hereY, both⟩
    · simp [Walker.perform, noX, noY, paired]
    · have same := abreast.fields x y both
      simp [Walker.perform, hereX, hereY, same, paired]

/-- Any row of steps, from any number of cursors. -/
theorem Abreast.answers (abreast : Abreast related left right) {xs : List σ} {ys : List τ}
    (paired : List.Forall₂ related xs ys) (steps : List Step) :
    left.answers xs steps = right.answers ys steps := by
  induction steps generalizing xs ys with
  | nil => rfl
  | cons step steps ih =>
    obtain ⟨same, onward⟩ := abreast.perform paired step
    simp [Walker.answers, same, ih onward]

end

end Walker

namespace Layout

/-- What is ahead after so many advances. -/
def after (origin : Layout) : Nat → Layout
  | 0 => origin
  | count + 1 => (origin.after count).advance.2

/-- The table that an index goes through in place of a cursor. -/
def row (origin : Layout) (index : Nat) : Except Descriptor.Error (Option Field) :=
  (origin.after index).advance.1

theorem after_leading (origin : Layout) {index : Nat} (within : index ≤ origin.leading.length) :
    (origin.after index).leading = origin.leading.drop index ∧
      (origin.after index).fault? = origin.fault? := by
  induction index with
  | zero => exact ⟨rfl, rfl⟩
  | succ index ih =>
    obtain ⟨left, fault⟩ := ih (Nat.le_of_succ_le within)
    have next := advance_leading (origin.after index)
    rw [left, List.drop_eq_getElem_cons within] at next
    exact ⟨next.2.1, next.2.2.trans fault⟩

theorem row_inside (origin : Layout) {index : Nat} (inside : index < origin.leading.length) :
    origin.row index = .ok origin.leading[index]? := by
  have next := advance_leading (origin.after index)
  rw [(after_leading origin (Nat.le_of_lt inside)).1, List.drop_eq_getElem_cons inside] at next
  simp [row, next.1, inside]

theorem advance_behind (origin : Layout) :
    match origin.fault? with
    | none => (origin.after origin.leading.length).advance = (.ok none, .ended)
    | some error => origin.row origin.leading.length = .error error := by
  obtain ⟨left, fault⟩ := after_leading origin (Nat.le_refl _)
  have next := advance_leading (origin.after origin.leading.length)
  cases broken : origin.fault? with
  | none => simpa [left, fault, broken] using next
  | some error => simpa [left, fault, broken, row] using next

/-- Behind the last field nothing is left, however often one asks. -/
theorem row_of_sound (origin : Layout) (sound : origin.fault? = none) (index : Nat) :
    origin.row index = .ok origin.leading[index]? := by
  by_cases inside : index < origin.leading.length
  · exact origin.row_inside inside
  · -- The end is answered once with nothing ahead, and then again and again.
    have ended : ∀ more,
        (origin.after (origin.leading.length + more)).advance = (.ok none, .ended) := by
      intro more
      induction more with
      | zero => simpa [sound] using origin.advance_behind
      | succ more ih => simp [after, ih, advance]
    obtain ⟨more, rfl⟩ := Nat.exists_eq_add_of_le (Nat.le_of_not_lt inside)
    simp [row, ended more]

/-- Where nothing is left, the next answer is the same. -/
theorem advance_again {layout : Layout} (done : layout.advance.1 = .ok none) :
    layout.advance.2.advance = layout.advance := by
  have next := advance_leading layout
  cases left : layout.leading with
  | nil =>
    cases fault : layout.fault? with
    | none =>
      simp only [left, fault] at next
      simp [next, advance]
    | some error => simp [left, fault, done] at next
  | cons field rest => simp [left, done] at next

end Layout

/-- A cursor answers as the layout does after so many advances. It need not have the same
layout ahead, for copies that are not due may still be written in front. -/
structure Cursor.At (origin : Layout) (cursor : Cursor) (index : Nat) : Prop where
  begins : cursor.origin = origin
  ahead : cursor.ahead.advance = (origin.after index).advance

theorem Cursor.walker_abreast (origin : Layout) :
    Walker.Abreast (At origin) walker (indices origin.row origin.fields) := by
  constructor
  · intro cursor index stands
    obtain ⟨same, ahead⟩ := stands
    refine ⟨congrArg Prod.fst ahead, same, ?_⟩
    change cursor.ahead.advance.2.advance = _
    rw [ahead]
    -- The index stays at the end, and there the layout has come to the end as well.
    by_cases done : origin.row index = .ok none
    · simp only [indices, done, ↓reduceIte]
      exact Layout.advance_again done
    · simp [indices, done, Layout.after]
  · intro cursor index stands
    obtain ⟨same, _⟩ := stands
    exact ⟨same, congrArg Layout.advance same⟩
  · intro cursor index stands
    exact congrArg Layout.fields stands.begins

/-- A bookmark has ahead what the cursor has, and has the cursor's whole descriptor behind
its beginning. -/
structure Bookmark.Marks (bookmark : Bookmark) (cursor : Cursor) : Prop where
  start : unread bookmark.start = cursor.origin
  ahead : Ahead bookmark cursor.ahead

theorem Bookmark.walker_abreast : Walker.Abreast Marks walker Cursor.walker := by
  have fresh : ∀ bookmark cursor, Marks bookmark cursor →
      Ahead bookmark.reset cursor.origin := by
    intro bookmark cursor marks
    rw [← marks.start]
    exact .unread bookmark.start bookmark.start none
  constructor
  · intro bookmark cursor marks
    obtain ⟨answered, onward⟩ := marks.ahead.step
    refine ⟨answered, ?_, onward⟩
    change unread bookmark.advance.2.start = cursor.origin
    rw [start_advance, marks.start]
  · intro bookmark cursor marks
    exact ⟨marks.start, fresh bookmark cursor marks⟩
  · intro bookmark cursor marks
    exact (fresh bookmark cursor marks).collect

namespace Descriptor

/-- A cursor before the first field of a descriptor, and a bookmark there, answer as the
index zero into rows. Their copies and what they come to are then indices as well. -/
def IndexesInto (text : String) (cursor : Cursor)
    (row : Nat → Except Error (Option Field)) (all : Except Error (List Field)) : Prop :=
  ∀ steps, Cursor.walker.answers [cursor] steps = (indices row all).answers [0] steps ∧
    Bookmark.walker.answers [Bookmark.ofText text] steps = (indices row all).answers [0] steps

/-- A descriptor has this fault behind sound items, whose fields these are. -/
def Interrupted (text : String) (leading : List Field) (error : Error) : Prop :=
  ∃ earlier rest, (afterDot (spelling text)).2 = write earlier ++ rest ∧
    (∀ item ∈ earlier, item.Sound) ∧ earlier.flatMap (Item.fields · false) = leading ∧
    Fault ((afterDot (spelling text)).1 + (write earlier).length) rest error

theorem indexesInto_of_ofText {text : String} {layout : Layout}
    (opened : Layout.ofText text = .ok layout) :
    IndexesInto text ⟨layout, layout⟩ layout.row layout.fields := by
  intro steps
  have cursors : Cursor.walker.answers [⟨layout, layout⟩] steps =
      (indices layout.row layout.fields).answers [0] steps :=
    (Cursor.walker_abreast layout).answers (.cons ⟨rfl, rfl⟩ .nil) steps
  refine ⟨cursors, ?_⟩
  rw [← cursors]
  have marks : Bookmark.Marks (Bookmark.ofText text) ⟨layout, layout⟩ :=
    ⟨Bookmark.unread_of_ofText opened, Bookmark.ahead_of_ofText opened⟩
  exact Bookmark.walker_abreast.answers (.cons marks .nil) steps

theorem interrupted_of_fault {text : String} {layout : Layout} {error : Error}
    (opened : Layout.ofText text = .ok layout) (broken : layout.fault? = some error) :
    Interrupted text layout.leading error := by
  have start := Bookmark.unread_of_ofText opened
  rw [← start] at broken ⊢
  obtain ⟨earlier, rest, spelt, sound, fault⟩ := (scan_fault_iff _ _ _).mp broken
  refine ⟨earlier, rest, spelt, sound, ?_, fault⟩
  obtain ⟨found, before⟩ := scan_fault fault
  have more : rest ≠ [] := by
    rintro rfl
    cases found
  have whole := scan_write_leading (Bookmark.ofText text).start.offset earlier more sound
  rw [Bookmark.unread, spelt, whole]
  simpa using before

/-- Cursors are indices into the fields of their descriptor, under any row of advances,
resets, copies and readings of all fields. An index that has come to the end stays there. In
a descriptor with a fault the rows are the fields before the fault and then the fault itself.
All fields together are then this same fault, wherever a cursor stands, and a reset begins
with the first row again. -/
theorem cursors_are_indices {text : String} {cursor : Cursor}
    (made : Cursor.ofText text = .ok cursor) :
    (∀ all, cursor.fields = .ok all → IndexesInto text cursor (.ok all[·]?) (.ok all)) ∧
    ∀ error, cursor.fields = .error error →
      ∃ leading row, Interrupted text leading error ∧
        (∀ index < leading.length, row index = .ok leading[index]?) ∧
        row leading.length = .error error ∧ IndexesInto text cursor row (.error error) := by
  rw [Cursor.ofText] at made
  cases opened : Layout.ofText text with
  | error refusal =>
    rw [opened] at made
    cases made
  | ok layout =>
    rw [opened] at made
    cases made
    have indexed := indexesInto_of_ofText opened
    constructor
    · intro all read
      obtain ⟨sound, spelt⟩ := (layout.fields_eq_ok_iff all).mp read
      have rows : layout.row = (.ok all[·]?) := by
        funext index
        rw [← spelt]
        exact layout.row_of_sound sound index
      rw [← rows, ← show layout.fields = .ok all from read]
      exact indexed
    · intro error failed
      have broken := (layout.fields_eq_error_iff error).mp failed
      have behind := layout.advance_behind
      rw [broken] at behind
      refine ⟨layout.leading, layout.row, interrupted_of_fault opened broken,
        fun _ => layout.row_inside, behind, ?_⟩
      rw [← show layout.fields = .error error from failed]
      exact indexed

/-- Repetitions with a count of zero among them, and a bit field that is too wide. -/
theorem cursors_are_indices_repeated_and_broken :
    (∃ cursor, Cursor.ofText "2h0iu" = .ok cursor ∧
      IndexesInto "2h0iu" cursor
        (.ok [.ofScalar (.int .w16), .ofScalar (.int .w16), ⟨.raw, 1, false⟩][·]?)
        (.ok [.ofScalar (.int .w16), .ofScalar (.int .w16), ⟨.raw, 1, false⟩])) ∧
    ∃ cursor, Cursor.ofText "2h9t" = .ok cursor ∧
      ∃ leading row, Interrupted "2h9t" leading (.bitCount 3) ∧
        (∀ index < leading.length, row index = .ok leading[index]?) ∧
        row leading.length = .error (.bitCount 3) ∧
        IndexesInto "2h9t" cursor row (.error (.bitCount 3)) := by
  let whole : Layout := .repeated (.int .w16) 2 (.repeated (.int .w32) 0
    (.single ⟨.raw, 1, false⟩ .ended))
  let broken : Layout := .repeated (.int .w16) 2 (.malformed (.bitCount 3)
    (.single ⟨.bits, 1, false⟩ .ended))
  have opened : Cursor.ofText "2h0iu" = .ok ⟨whole, whole⟩ := by with_unfolding_all rfl
  have begun : Cursor.ofText "2h9t" = .ok ⟨broken, broken⟩ := by with_unfolding_all rfl
  exact ⟨⟨_, opened, (cursors_are_indices opened).1 _ rfl⟩,
    ⟨_, begun, (cursors_are_indices begun).2 _ rfl⟩⟩

/-- A copy that is made amid the repetitions goes on by itself, and a reset drops those that
are due. -/
example :
    (Cursor.ofText "2hq").map (fun cursor => Cursor.walker.answers [cursor]
      [.advance 0, .clone 0, .reset 0, .advance 1, .advance 1, .advance 1, .advance 0]) =
    .ok [.next (.ok (some (.ofScalar (.int .w16)))), .done, .done,
      .next (.ok (some (.ofScalar (.int .w16)))), .next (.ok (some (.ofScalar (.int .w64)))),
      .next (.ok none), .next (.ok (some (.ofScalar (.int .w16))))] := by
  with_unfolding_all rfl

end Descriptor

end OrderPack
