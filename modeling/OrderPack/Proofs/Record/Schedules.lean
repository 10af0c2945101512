import OrderPack.Proofs.Record.Calls

/-! The ways to pull the next value out of an unpacker: a turn of iteration, a call for the
next value, or a call for the next field and then one to read it. They share the place in the
record, and only the first keeps in mind that iteration has ended. Until it has, they differ in
nothing else, so that the values, where the unpacker stands after each of them and how it ends
are the same in whatever order the ways are taken. -/
namespace OrderPack.Record.Unpacker

/-- A way to pull the next value. -/
inductive Way where
  | turn
  | value
  /-- The field is sought first, and read in a call of its own. -/
  | fieldThenRead

/-- The next value by one of the ways, or none where no field is left. -/
def pull (unpacker : Unpacker) : Way → Except UnpackError (Option Value) × Unpacker
  | .turn =>
    match unpacker.next with
    | (none, after) => (.ok none, after)
    | (some (.ok value), after) => (.ok (some value), after)
    | (some (.error error), after) => (.error error, after)
  | .value => unpacker.nextValue
  | .fieldThenRead =>
    match unpacker.nextField with
    | (.error error, after) => (.error error, after)
    | (.ok none, after) => (.ok none, after)
    | (.ok (some field), before) =>
      ((before.readValue field).1.map some, (before.readValue field).2)

/-- Pulling by the ways that a schedule names, one pull after the other, until the end or the
first failure: the values with the position after each of them, how it ended, and the position
then. -/
inductive Pulled :
    (Nat → Way) → Unpacker → List (Value × Nat) → Option UnpackError → Nat → Prop where
  | ended {schedule : Nat → Way} {unpacker after : Unpacker}
      (done : unpacker.pull (schedule 0) = (.ok none, after)) :
      Pulled schedule unpacker [] none after.position
  | failed {schedule : Nat → Way} {unpacker after : Unpacker}
      (stopped : unpacker.pull (schedule 0) = (.error error, after)) :
      Pulled schedule unpacker [] (some error) after.position
  | value {schedule : Nat → Way} {unpacker after : Unpacker}
      (pulled : unpacker.pull (schedule 0) = (.ok (some value), after))
      (later : Pulled (schedule <| · + 1) after found ending last) :
      Pulled schedule unpacker ((value, after.position) :: found) ending last

/-- A schedule settles what is pulled. -/
theorem Pulled.unique {schedule : Nat → Way} {unpacker : Unpacker}
    (one : Pulled schedule unpacker found ending last)
    (other : Pulled schedule unpacker found' ending' last') :
    found' = found ∧ ending' = ending ∧ last' = last := by
  induction one generalizing found' ending' last' with
  | ended done =>
    cases other with
    | ended again =>
      cases done.symm.trans again
      exact ⟨rfl, rfl, rfl⟩
    | failed again | value again => cases done.symm.trans again
  | failed stopped =>
    cases other with
    | failed again =>
      cases stopped.symm.trans again
      exact ⟨rfl, rfl, rfl⟩
    | ended again | value again => cases stopped.symm.trans again
  | value pulled later ih =>
    cases other with
    | value again following =>
      cases pulled.symm.trans again
      obtain ⟨rfl, rfl, rfl⟩ := ih following
      exact ⟨rfl, rfl, rfl⟩
    | ended again | failed again => cases pulled.symm.trans again

/-! What iteration keeps in mind is nothing to the other calls. -/

theorem nextField_ended (unpacker : Unpacker) : unpacker.nextField.2.ended = unpacker.ended := by
  simp [nextField]

theorem readValue_ended (unpacker : Unpacker) (field : Field) :
    (unpacker.readValue field).2.ended = unpacker.ended := by
  simp [readValue]

theorem nextValue_ended (unpacker : Unpacker) : unpacker.nextValue.2.ended = unpacker.ended := by
  have sought := unpacker.nextField_ended
  rw [nextValue]
  revert sought
  rcases unpacker.nextField with ⟨error | _ | field, before⟩
  · exact id
  · exact id
  · intro sought
    exact (before.readValue_ended field).trans sought

/-- Iteration that has ended is never taken up again. -/
theorem perform_ended {unpacker : Unpacker} (ended : unpacker.ended = true) (call : Call) :
    (unpacker.perform call).2.ended = true := by
  cases call with
  | nextField => exact unpacker.nextField_ended.trans ended
  | readValue field => exact (unpacker.readValue_ended field).trans ended
  | nextValue => exact unpacker.nextValue_ended.trans ended
  | next => simp [perform, next, ended]

theorem performAll_ended {unpacker : Unpacker} (ended : unpacker.ended = true)
    (calls : List Call) : (unpacker.performAll calls).2.ended = true := by
  induction calls generalizing unpacker with
  | nil => exact ended
  | cons call calls ih => exact ih (perform_ended ended call)

theorem next_of_ended {unpacker : Unpacker} (ended : unpacker.ended = true) :
    unpacker.next = (none, unpacker) := by
  simp [next, ended]

/-- Iteration ends with the first turn that has no value. -/
theorem ended_of_next {unpacker : Unpacker}
    (finished : unpacker.next.1 = none ∨ ∃ error, unpacker.next.1 = some (.error error)) :
    unpacker.next.2.ended = true := by
  by_cases before : unpacker.ended = true
  · simp [next, before]
  · simp only [next, before] at finished ⊢
    revert finished
    rcases unpacker.nextValue with ⟨error | _ | value, after⟩ <;> simp

/-- While iteration has not ended, every way has the answer of a call for the next value and
comes to the same position. Where there was a value the unpacker is the same as after that
call. -/
theorem pull_eq {unpacker : Unpacker} (running : unpacker.ended = false) (way : Way) :
    (unpacker.pull way).1 = unpacker.nextValue.1 ∧
      (unpacker.pull way).2.position = unpacker.nextValue.2.position ∧
      ∀ value, unpacker.nextValue.1 = .ok (some value) →
        (unpacker.pull way).2 = unpacker.nextValue.2 := by
  cases way with
  | value => simp [pull]
  | turn =>
    simp only [pull, next, running]
    rcases unpacker.nextValue with ⟨error | _ | value, after⟩ <;> simp [position]
  | fieldThenRead =>
    simp only [pull, nextValue]
    rcases unpacker.nextField with ⟨error | _ | field, before⟩ <;> simp

/-! One pull by any way. -/

section Pull
variable {unpacker after : Unpacker} (running : unpacker.ended = false)
include running

theorem pulled_end (done : unpacker.nextValue = (.ok none, after)) (schedule : Nat → Way) :
    Pulled schedule unpacker [] none after.position := by
  obtain ⟨answered, place, _⟩ := pull_eq running (schedule 0)
  rw [done] at answered place
  rw [← place]
  exact .ended (Prod.ext answered rfl)

theorem pulled_failure (stopped : unpacker.nextValue = (.error error, after))
    (schedule : Nat → Way) : Pulled schedule unpacker [] (some error) after.position := by
  obtain ⟨answered, place, _⟩ := pull_eq running (schedule 0)
  rw [stopped] at answered place
  rw [← place]
  exact .failed (Prod.ext answered rfl)

theorem pulled_value (read : unpacker.nextValue = (.ok (some value), after))
    (later : ∀ schedule, Pulled schedule after found ending last) (schedule : Nat → Way) :
    Pulled schedule unpacker ((value, after.position) :: found) ending last := by
  obtain ⟨answered, _, same⟩ := pull_eq running (schedule 0)
  rw [read] at answered same
  exact .value (Prod.ext answered (same value rfl)) (later _)

end Pull

/-- What an unpacker finds is pulled out of it by every schedule. -/
theorem Streams.pulled {unpacker : Unpacker} {fields : List Field} {values : List Value}
    {ending : Option UnpackError} (streams : unpacker.Streams fields values ending)
    (running : unpacker.ended = false) :
    ∃ found last, found.map Prod.fst = values ∧
      ∀ schedule, Pulled schedule unpacker found ending last := by
  induction streams with
  | @ended unpacker after done =>
    have called : unpacker.nextValue = (.ok none, after) := by simp [nextValue, done]
    exact ⟨[], after.position, rfl, pulled_end running called⟩
  | @lost error unpacker after stopped =>
    have called : unpacker.nextValue = (.error error, after) := by simp [nextValue, stopped]
    exact ⟨[], after.position, rfl, pulled_failure running called⟩
  | @unread error unpacker before after field reached failed =>
    have called : unpacker.nextValue = (.error error, after) := by
      simp only [nextValue, reached, failed]
      rfl
    exact ⟨[], after.position, rfl, pulled_failure running called⟩
  | @value found values ending unpacker before after field value reached read later ih =>
    have called : unpacker.nextValue = (.ok (some value), after) := by
      simp only [nextValue, reached, read]
      rfl
    have still : after.ended = false := by
      have kept := unpacker.nextValue_ended
      rw [called] at kept
      exact kept.trans running
    -- After a value all ways leave the same unpacker, so that what is pulled later is the same.
    obtain ⟨found, last, same, pulled⟩ := ih still
    refine ⟨(value, after.position) :: found, last, ?_, pulled_value running called pulled⟩
    simp [same]

/-- In whatever order the ways to pull a value are taken, the same values come out of a record,
the unpacker stands at the same positions after them, and it ends in the same way at the same
position. The values of the whole record are these, or it has this failure. Where no unpacker
can be made the whole record fails in the same way. Once a turn of iteration has had no value,
no later one has, whatever calls are made in between. -/
theorem pulls_agree (descriptor : String) (buffer : List UInt8) :
    (∀ error, ofText descriptor buffer = .error error →
      unpack descriptor buffer = .error error) ∧
    (∀ unpacker, ofText descriptor buffer = .ok unpacker →
      ∃ found ending last,
        (∀ schedule found' ending' last', Pulled schedule unpacker found' ending' last' ↔
          found' = found ∧ ending' = ending ∧ last' = last) ∧
        unpack descriptor buffer = outcome (found.map Prod.fst) ending) ∧
    ∀ unpacker : Unpacker,
      (unpacker.next.1 = none ∨ ∃ error, unpacker.next.1 = some (.error error)) →
      ∀ calls, (unpacker.next.2.performAll calls).2.next.1 = none := by
  refine ⟨?_, ?_, ?_⟩
  · intro error refused
    exact unpack_of_streamed (.closed refused)
  · intro unpacker made
    obtain ⟨fields, values, ending, streams⟩ := unpacker.exists_streams
    have running : unpacker.ended = false := by
      obtain ⟨layout, _, rfl⟩ := of_ofText made
      rfl
    obtain ⟨found, last, rfl, pulled⟩ := streams.pulled running
    refine ⟨found, ending, last, ?_, unpack_of_streamed (.opened made streams)⟩
    intro schedule found' ending' last'
    constructor
    · exact (pulled schedule).unique
    · rintro ⟨rfl, rfl, rfl⟩
      exact pulled schedule
  · intro unpacker finished calls
    have ended := performAll_ended (ended_of_next finished) calls
    exact congrArg Prod.fst (next_of_ended ended)

/-- A record cut within its last field. Iteration that has failed there has no further turn. -/
example :
    (ofText "xQ2s" [0, 129, 65]).map (fun unpacker =>
      let first := unpacker.pull .fieldThenRead
      let second := first.2.pull .turn
      (first.1, first.2.position, second.1, second.2.position, (second.2.pull .turn).1)) =
    .ok (.ok (some (.uint64 1)), 2, .error (.field 2 (.shortage ⟨2, 1⟩)), 2, .ok none) := by
  with_unfolding_all rfl

end OrderPack.Record.Unpacker
