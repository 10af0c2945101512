import OrderPack.Proofs.Arguments
import OrderPack.Proofs.Record.Refusal
import OrderPack.Proofs.Record.Slots

/-! Which field a failure names. Packing, reading and the JSON arguments count the fields
they pass, padding with the others, so that the number they report is the place in the
descriptor of the field they could not pass. A slot of the wrong kind is reported with the
number of the slot instead, which leaves padding out. -/
namespace OrderPack.Record

/-- The steps over the fields of a descriptor pass all fields before this place, and fail at
the field there. -/
def StopsAt {σ ε : Type} (descriptor : String) (step : σ → Field → Except ε σ) (start : σ)
    (place : Nat) (error : ε) : Prop :=
  ∃ field reached, (Descriptor.leading descriptor)[place]? = some field ∧
    ((Descriptor.leading descriptor).take place).foldlM step start = .ok reached ∧
    step reached field = .error error

/-- Steps that do not pass all fields stop at one of them. What is kept with every field
that is passed holds there of the fields before it. -/
theorem stopsAt_of_foldlM {σ ε : Type} {descriptor : String} {step : σ → Field → Except ε σ}
    {start : σ} {error : ε} (holds : List Field → σ → Prop) (initial : holds [] start)
    (keeps : ∀ passed state field next, holds passed state → step state field = .ok next →
      holds (passed ++ [field]) next)
    (failed : (Descriptor.leading descriptor).foldlM step start = .error error) :
    ∃ place state field, StopsAt descriptor step start place error ∧
      holds ((Descriptor.leading descriptor).take place) state ∧
      ((Descriptor.leading descriptor).take place).length = place ∧
      step state field = .error error := by
  obtain ⟨place, field, reached, stands, passed, stopped⟩ := Layout.foldlM_error failed
  have within := (List.getElem?_eq_some_iff.mp stands).1
  exact ⟨place, reached, field, ⟨field, reached, stands, passed, stopped⟩,
    Layout.foldlM_keeps keeps initial passed, List.length_take_of_le (Nat.le_of_lt within), stopped⟩

namespace Sizing

/-- The fields passed are counted. -/
theorem step_counts {given : Nat} (passed : List Field) (sizing : Sizing) (field : Field)
    (next : Sizing) (counted : sizing.field = passed.length)
    (stepped : sizing.step given field = .ok next) :
    next.field = (passed ++ [field]).length := by
  obtain ⟨_, one, _⟩ := step_cases stepped
  rw [one, counted, List.length_append]
  rfl

theorem step_names {given : Nat} {sizing : Sizing} {field : Field} {error : PackError}
    (failed : sizing.step given field = .error error) :
    error.report.field = some sizing.field := by
  rcases step_refuses failed with ⟨_, _, rfl⟩ | ⟨_, _, _, _, _, rfl⟩ | ⟨_, _, _, rfl⟩ <;> rfl

end Sizing

/-- A field that is named in sizing is the one the sizing has come to. -/
theorem packedSize_stops {descriptor : String} {values : List Value} {error : PackError}
    (failed : packedSize descriptor values = .error error)
    (named : error.report.field = some place) :
    StopsAt descriptor (Sizing.step values.length) ⟨values, 0, 0⟩ place error := by
  rw [packedSize_eq] at failed
  cases walked : (Descriptor.leading descriptor).foldlM (Sizing.step values.length)
      ⟨values, 0, 0⟩ with
  | ok last =>
    rw [walked] at failed
    cases known : Descriptor.fields descriptor with
    | ok fields =>
      rw [known] at failed
      cases failed
    | error cause =>
      rw [known] at failed
      cases failed
      cases named
  | error first =>
    rw [walked] at failed
    cases failed
    obtain ⟨index, sizing, field, stops, counted, length, stopped⟩ :=
      stopsAt_of_foldlM (fun passed sizing => sizing.field = passed.length) rfl
        Sizing.step_counts walked
    rw [Sizing.step_names stopped, counted, length] at named
    cases named
    exact stops

theorem pack_stops {descriptor : String} {values : List Value} {error : PackError}
    (failed : pack descriptor values = .error error) (named : error.report.field = some place) :
    StopsAt descriptor (Sizing.step values.length) ⟨values, 0, 0⟩ place error := by
  rcases pack_eq_error_iff.mp failed with unsized | ⟨rfl, _⟩
  · exact packedSize_stops unsized named
  · cases named

theorem leading_of_openRecord {descriptor : String} {buffer : List UInt8} {layout : Layout}
    (opened : openRecord descriptor buffer = .ok layout) :
    Descriptor.leading descriptor = layout.leading := by
  unfold openRecord at opened
  split at opened
  · cases opened
  · cases read : Layout.ofText descriptor with
    | error cause =>
      rw [read] at opened
      cases opened
    | ok layout =>
      rw [read] at opened
      cases opened
      exact Descriptor.leading_of_ofText read

/-- Where there is no layout no field is named. -/
theorem field_of_openRecord {descriptor : String} {buffer : List UInt8} {error : UnpackError}
    (refused : openRecord descriptor buffer = .error error) : error.report.field = none := by
  unfold openRecord at refused
  split at refused
  · cases refused
    rfl
  · cases read : Layout.ofText descriptor with
    | error cause =>
      rw [read] at refused
      cases refused
      rfl
    | ok layout =>
      rw [read] at refused
      cases refused

namespace Reading

theorem step_counts (passed : List Field) (reading : Reading) (field : Field) (next : Reading)
    (counted : reading.field = passed.length) (stepped : reading.step field = .ok next) :
    next.field = (passed ++ [field]).length := by
  have one : next.field = reading.field + 1 := by
    unfold step at stepped
    split at stepped
    all_goals
      split at stepped
      · cases stepped
        rfl
      · cases stepped
  rw [one, counted, List.length_append]
  rfl

theorem step_names {reading : Reading} {field : Field} {error : UnpackError}
    (failed : reading.step field = .error error) : error.report.field = some reading.field := by
  unfold step at failed
  split at failed
  all_goals
    split at failed
    · cases failed
    · cases failed
      rfl

end Reading

/-- A field that is named in reading is the one the reading has come to. -/
theorem unpack_stops {descriptor : String} {buffer : List UInt8} {error : UnpackError}
    (failed : unpack descriptor buffer = .error error) (named : error.report.field = some place) :
    StopsAt descriptor Reading.step ⟨⟨0, buffer⟩, 0, []⟩ place error := by
  unfold unpack at failed
  cases opened : openRecord descriptor buffer with
  | error cause =>
    rw [opened] at failed
    cases failed
    cases (field_of_openRecord opened).symm.trans named
  | ok layout =>
    rw [opened] at failed
    cases ran : Reading.run layout buffer with
    | ok last =>
      simp only [ran] at failed
      cases failed
    | error first =>
      simp only [ran] at failed
      cases failed
      rcases Layout.foldFields_stops ran with walked | ⟨_, cause, _, _, rfl⟩
      · rw [← leading_of_openRecord opened] at walked
        obtain ⟨index, reading, field, stops, counted, length, stopped⟩ :=
          stopsAt_of_foldlM (fun passed reading => reading.field = passed.length) rfl
            Reading.step_counts walked
        rw [Reading.step_names stopped, counted, length] at named
        cases named
        exact stops
      · cases named

namespace Filling

/-- The filling counts the fields it has passed, and has a slot filled for each of them that
holds a value. -/
structure Counts (passed : List Field) (filling : Filling) : Prop where
  field : filling.field = passed.length
  filled : filling.filled.length = passed.countP Field.holdsValue

theorem step_counts (passed : List Field) (filling : Filling) (field : Field) (next : Filling)
    (counts : Counts passed filling) (stepped : filling.step field = .ok next) :
    Counts (passed ++ [field]) next := by
  unfold step at stepped
  split at stepped
  · rename_i holds
    split at stepped
    · cases stepped
    · split at stepped
      · split at stepped
        · cases stepped
          refine ⟨?_, ?_⟩
          · simp [counts.field]
          · simp [counts.filled, holds]
        · cases stepped
      · cases stepped
  · rename_i skips
    split at stepped
    · cases stepped
      refine ⟨?_, ?_⟩
      · simp [counts.field]
      · simp [counts.filled, skips]
    · cases stepped

/-- A slot of the wrong kind is named by its number, and any other failure that names a field
by the field's. -/
theorem step_names {filling : Filling} {field : Field} {error : FillError} {after : List Value}
    (failed : filling.step field = .error (error, after))
    (named : error.report.field = some place) :
    place = if error.report.kind = .typeMismatch then filling.filled.length else filling.field := by
  unfold step at failed
  split at failed
  · split at failed
    · cases failed
      cases named
    · split at failed
      · split at failed
        · cases failed
        · cases failed
          cases named
          exact (if_neg (UnpackError.kind_ne _).2).symm
      · cases failed
        cases named
        rfl
  · split at failed
    · cases failed
    · cases failed
      cases named
      rfl

end Filling

/-- A field that is named in filling slots is the one the filling has come to. -/
theorem unpackInto_stops {descriptor : String} {buffer : List UInt8} {slots after : List Value}
    {error : FillError} (failed : unpackInto descriptor buffer slots = (.error error, after))
    (named : error.report.field = some place) :
    ∃ index, StopsAt descriptor Filling.step ⟨⟨0, buffer⟩, 0, [], slots⟩ index (error, after) ∧
      place = if error.report.kind = .typeMismatch
        then ((Descriptor.leading descriptor).take index).countP Field.holdsValue else index := by
  unfold unpackInto at failed
  cases opened : openRecord descriptor buffer with
  | error cause =>
    rw [opened] at failed
    cases failed
    cases (field_of_openRecord opened).symm.trans named
  | ok layout =>
    rw [opened] at failed
    cases ran : Filling.run layout buffer slots with
    | ok last =>
      simp only [ran] at failed
      cases failed
    | error first =>
      simp only [ran] at failed
      cases failed
      rcases Layout.foldFields_stops ran with walked | ⟨_, cause, _, _, same⟩
      · rw [← leading_of_openRecord opened] at walked
        obtain ⟨index, filling, field, stops, counts, length, stopped⟩ :=
          stopsAt_of_foldlM Filling.Counts ⟨rfl, rfl⟩ Filling.step_counts walked
        have place := Filling.step_names stopped named
        rw [counts.field, counts.filled, length] at place
        exact ⟨index, stops, place⟩
      · cases same
        cases named

/-- Fields are numbered as they stand in the descriptor, padding with the others. The field
that a failure of packing, sizing or reading names is the first that could not be passed,
and so is the one that a failure of the JSON arguments names: it is the field whose item it
could not take. Filling slots names that field too, except where the slot is of the wrong
kind: the number is then that of the slot, which is how many fields before it hold a
value. -/
theorem reported_field (descriptor : String) :
    (∀ fields, Descriptor.fields descriptor = .ok fields →
      Descriptor.leading descriptor = fields) ∧
    (∀ values error place,
      pack descriptor values = .error error ∨ packedSize descriptor values = .error error →
      error.report.field = some place →
      StopsAt descriptor (Sizing.step values.length) ⟨values, 0, 0⟩ place error) ∧
    (∀ buffer error place, unpack descriptor buffer = .error error →
      error.report.field = some place →
      StopsAt descriptor Reading.step ⟨⟨0, buffer⟩, 0, []⟩ place error) ∧
    (∀ arguments error place, Arguments.values descriptor arguments = .error error →
      error.report.field = some place →
      ∃ items item kind shown, arguments = .array items ∧
        error = .wrongKind item place kind shown ∧
        Arguments.Refuses (Descriptor.leading descriptor) items place item kind) ∧
    ∀ buffer slots error after place,
      unpackInto descriptor buffer slots = (.error error, after) →
      error.report.field = some place →
      ∃ index,
        StopsAt descriptor Filling.step ⟨⟨0, buffer⟩, 0, [], slots⟩ index (error, after) ∧
        place = if error.report.kind = .typeMismatch
          then ((Descriptor.leading descriptor).take index).countP Field.holdsValue
          else index := by
  refine ⟨fun fields known => Descriptor.leading_eq known, ?_,
    fun buffer error place failed named => unpack_stops failed named, ?_,
    fun buffer slots error after place failed named => unpackInto_stops failed named⟩
  · rintro values error place (failed | unsized) named
    · exact pack_stops failed named
    · exact packedSize_stops unsized named
  · intro arguments error place failed named
    cases error with
    | wrongKind item own kind shown =>
      cases named
      obtain ⟨items, array, refuses⟩ := Arguments.values_wrongKind failed
      exact ⟨items, item, kind, shown, array, rfl, refuses⟩
    | notArray | descriptor | noKind => cases named

/-- Behind padding the number of a slot is not the place of its field. The first slot is for
the second field here, at which the filling stops, and yet the first field is named. -/
theorem slot_number_reported :
    ∃ error after, unpackInto "xq" [0, 129] [.text ""] = (.error error, after) ∧
      error.report.field = some 0 ∧
      StopsAt "xq" Filling.step ⟨⟨0, [0, 129]⟩, 0, [], [.text ""]⟩ 1 (error, after) ∧
      ¬StopsAt "xq" Filling.step ⟨⟨0, [0, 129]⟩, 0, [], [.text ""]⟩ 0 (error, after) := by
  have leading : Descriptor.leading "xq" = [⟨.padding, 1, false⟩, .ofScalar (.int .w64)] := by
    with_unfolding_all rfl
  refine ⟨.wrongSlot 0 (.scalar (.int .w64)) .text 1, [.text ""], ?_, rfl, ?_, ?_⟩
  · with_unfolding_all rfl
  · exact ⟨.ofScalar (.int .w64), ⟨⟨1, [129]⟩, 1, [], [.text ""]⟩, by rw [leading]; rfl,
      by rw [leading]; rfl, rfl⟩
  · rintro ⟨field, reached, stands, passed, stopped⟩
    rw [leading] at stands
    cases stands
    cases passed
    cases stopped

end OrderPack.Record
