import OrderPack.Descriptor.Layout

/-! A layout stands for its leading fields, those before the first fault, and for that
fault. Whatever walks a layout walks these fields one by one. How the fields of a
descriptor may stand is found here as well: a field that takes all that is left of a
buffer is the last. -/
namespace OrderPack

namespace Field

/-- Bytes without a size and without their length in front run to the end of the
buffer. -/
def RunsToEnd (field : Field) : Prop := field.tag = .raw ∧ field.sized = false

/-- What a descriptor says of the size of a field of each tag. -/
def WellFormed (field : Field) : Prop :=
  match field.tag with
  | .padding | .text | .raw => True
  | .fixedText => 1 ≤ field.size
  | .bits => 1 ≤ field.size ∧ field.size ≤ 8
  | .sizedRaw => field.sized = false
  | .scalar scalar => field = Field.ofScalar scalar

end Field

/-- Fields as they stand in a descriptor: none but the last runs to the end. -/
def Arranged : List Field → Prop
  | [] => True
  | field :: rest => field.WellFormed ∧ (field.RunsToEnd → rest = []) ∧ Arranged rest

theorem arranged_cons {field : Field} {rest : List Field} (formed : field.WellFormed)
    (closed : ¬field.RunsToEnd) (arranged : Arranged rest) : Arranged (field :: rest) :=
  ⟨formed, fun toEnd => absurd toEnd closed, arranged⟩

theorem Arranged.wellFormed {fields : List Field} (arranged : Arranged fields) :
    ∀ field ∈ fields, field.WellFormed := by
  induction fields with
  | nil => exact fun _ found => nomatch found
  | cons first rest ih =>
    intro field found
    rcases List.mem_cons.mp found with rfl | later
    · exact arranged.1
    · exact ih arranged.2.2 field later

theorem arranged_replicate (scalar : Scalar) (copies : Nat) (rest : List Field)
    (arranged : Arranged rest) :
    Arranged (List.replicate copies (Field.ofScalar scalar) ++ rest) := by
  induction copies with
  | zero => exact arranged
  | succ copies ih =>
    rw [List.replicate_succ, List.cons_append]
    exact arranged_cons rfl (fun toEnd => nomatch toEnd.1) ih

namespace Layout

/-- The fields before the first fault. -/
def leading : Layout → List Field
  | .ended | .malformed .. | .stuck _ => []
  | .single field rest => field :: rest.leading
  | .repeated scalar copies rest =>
    List.replicate copies (Field.ofScalar scalar) ++ rest.leading

/-- A layout spells out to its leading fields, if nothing is wrong with it. -/
theorem fields_eq (layout : Layout) :
    layout.fields =
      match layout.fault? with
      | none => .ok layout.leading
      | some error => .error error := by
  induction layout with
  | ended | malformed | stuck => rfl
  | single field rest ih | repeated scalar copies rest ih =>
    simp only [fields, fault?, leading, ih]
    cases rest.fault? <;> rfl

theorem fields_eq_ok_iff (layout : Layout) (fields : List Field) :
    layout.fields = .ok fields ↔ layout.fault? = none ∧ layout.leading = fields := by
  rw [fields_eq]
  cases layout.fault? <;> simp

theorem fields_eq_error_iff (layout : Layout) (error : Descriptor.Error) :
    layout.fields = .error error ↔ layout.fault? = some error := by
  rw [fields_eq]
  cases layout.fault? <;> simp

theorem repeatStep_eq_foldlM {σ ε : Type} (step : σ → Field → Except ε σ) (field : Field)
    (copies : Nat) (state : σ) :
    repeatStep (step · field) copies state = (List.replicate copies field).foldlM step state := by
  induction copies generalizing state with
  | zero => rfl
  | succ copies ih =>
    rw [List.replicate_succ, List.foldlM_cons, repeatStep]
    cases step state field with
    | error error => rfl
    | ok next => exact ih next

/-- A walk that passes all fields passes the first, and then the others. -/
theorem foldlM_cons_eq_ok {σ ε : Type} {step : σ → Field → Except ε σ} {field : Field}
    {fields : List Field} {state last : σ}
    (passed : (field :: fields).foldlM step state = .ok last) :
    ∃ next, step state field = .ok next ∧ fields.foldlM step next = .ok last := by
  rw [List.foldlM_cons] at passed
  cases stepped : step state field with
  | error error =>
    rw [stepped] at passed
    cases passed
  | ok next =>
    rw [stepped] at passed
    exact ⟨next, rfl, passed⟩

/-- A walk over a layout is a walk over its leading fields, and then over its fault. -/
theorem foldFields_eq {σ ε : Type} (step : σ → Field → Except ε σ)
    (fault : σ → Descriptor.Error → ε) (layout : Layout) (state : σ) :
    layout.foldFields step fault state =
      (layout.leading.foldlM step state).bind fun last =>
        match layout.fault? with
        | none => .ok last
        | some error => .error (fault last error) := by
  induction layout generalizing state with
  | ended | malformed | stuck => rfl
  | single field rest ih =>
    rw [foldFields, leading, List.foldlM_cons]
    cases step state field with
    | error error => rfl
    | ok next => exact ih next
  | repeated scalar copies rest ih =>
    rw [foldFields, repeatStep_eq_foldlM, leading, List.foldlM_append]
    cases (List.replicate copies (Field.ofScalar scalar)).foldlM step state with
    | error error => rfl
    | ok next => exact ih next

/-- A walk gets to the end just when nothing is wrong with the layout and every field
is passed. -/
theorem foldFields_eq_ok_iff {σ ε : Type} {step : σ → Field → Except ε σ}
    {fault : σ → Descriptor.Error → ε} {layout : Layout} {state last : σ} :
    layout.foldFields step fault state = .ok last ↔
      layout.fault? = none ∧ layout.leading.foldlM step state = .ok last := by
  rw [foldFields_eq]
  cases layout.leading.foldlM step state with
  | error error => exact ⟨fun made => (nomatch made), fun ⟨_, passed⟩ => nomatch passed⟩
  | ok reached =>
    cases layout.fault? with
    | none => exact ⟨fun made => ⟨rfl, made⟩, And.right⟩
    | some cause => exact ⟨fun made => (nomatch made), fun ⟨sound, _⟩ => nomatch sound⟩

/-- A walk over fields that fails gets as far as a field that it cannot pass. -/
theorem foldlM_error {σ ε : Type} {step : σ → Field → Except ε σ} {fields : List Field}
    {state : σ} {error : ε} (failed : fields.foldlM step state = .error error) :
    ∃ place field reached, fields[place]? = some field ∧
      (fields.take place).foldlM step state = .ok reached ∧ step reached field = .error error := by
  induction fields generalizing state with
  | nil => cases failed
  | cons field fields ih =>
    rw [List.foldlM_cons] at failed
    cases stepped : step state field with
    | error first =>
      rw [stepped] at failed
      cases failed
      exact ⟨0, field, state, rfl, rfl, stepped⟩
    | ok next =>
      rw [stepped] at failed
      obtain ⟨place, later, reached, stands, passed, stopped⟩ := ih failed
      refine ⟨place + 1, later, reached, stands, ?_, stopped⟩
      rw [List.take_succ_cons, List.foldlM_cons, stepped]
      exact passed

/-- A walk fails at the first field that it cannot pass, or else at the fault. -/
theorem foldFields_stops {σ ε : Type} {step : σ → Field → Except ε σ}
    {fault : σ → Descriptor.Error → ε} {layout : Layout} {state : σ} {error : ε}
    (failed : layout.foldFields step fault state = .error error) :
    layout.leading.foldlM step state = .error error ∨
      ∃ last cause, layout.leading.foldlM step state = .ok last ∧ layout.fault? = some cause ∧
        fault last cause = error := by
  rw [foldFields_eq] at failed
  cases passed : layout.leading.foldlM step state with
  | error first =>
    rw [passed] at failed
    exact .inl (congrArg _ (Except.error.inj failed))
  | ok last =>
    rw [passed] at failed
    cases found : layout.fault? with
    | none =>
      rw [found] at failed
      cases failed
    | some cause =>
      rw [found] at failed
      exact .inr ⟨last, cause, rfl, rfl, Except.error.inj failed⟩

/-- A walk fails at a field or at the fault. -/
theorem foldFields_error {σ ε : Type} {step : σ → Field → Except ε σ}
    {fault : σ → Descriptor.Error → ε} {layout : Layout} {state : σ} {error : ε}
    (failed : layout.foldFields step fault state = .error error) :
    (∃ state field, step state field = .error error) ∨ ∃ state cause, fault state cause = error := by
  rcases foldFields_stops failed with stopped | ⟨last, cause, _, _, same⟩
  · obtain ⟨_, field, reached, _, _, stopped⟩ := foldlM_error stopped
    exact .inl ⟨reached, field, stopped⟩
  · exact .inr ⟨last, cause, same⟩

/-- What holds at first, and is kept with every field that is passed, holds of the fields
passed wherever a walk has come to. -/
theorem foldlM_keeps {σ ε : Type} {step : σ → Field → Except ε σ} {holds : List Field → σ → Prop}
    (keeps : ∀ passed state field next, holds passed state → step state field = .ok next →
      holds (passed ++ [field]) next)
    {passed fields : List Field} {state reached : σ} (start : holds passed state)
    (walked : fields.foldlM step state = .ok reached) : holds (passed ++ fields) reached := by
  induction fields generalizing passed state with
  | nil =>
    cases walked
    rwa [List.append_nil]
  | cons field fields ih =>
    obtain ⟨next, stepped, onwards⟩ := foldlM_cons_eq_ok walked
    rw [List.append_cons]
    exact ih (keeps passed state field next start stepped) onwards

/-- A walk over fields fails at a field that it cannot pass. -/
theorem foldlM_of_stop {σ ε : Type} {step : σ → Field → Except ε σ} {fields : List Field}
    {field : Field} {state reached : σ} {error : ε} (stands : fields[place]? = some field)
    (passed : (fields.take place).foldlM step state = .ok reached)
    (stopped : step reached field = .error error) : fields.foldlM step state = .error error := by
  obtain ⟨within, rfl⟩ := List.getElem?_eq_some_iff.mp stands
  rw [← List.take_append_drop place fields, List.foldlM_append, passed,
    List.drop_eq_getElem_cons within]
  change (fields[place] :: _).foldlM step reached = _
  rw [List.foldlM_cons, stopped]
  rfl

/-- The fields of an item are well formed, and the item runs to the end only if it is
the last. -/
private theorem ofItem_arranged (offset : Nat) (count : Option Nat) (tag : Tag) (last : Bool)
    (rest : Layout) (ends : last = true → rest.leading = []) (arranged : Arranged rest.leading) :
    Arranged (ofItem offset count tag last rest).leading := by
  unfold ofItem
  cases tag with
  | padding | text => exact arranged_cons trivial (fun toEnd => nomatch toEnd.1) arranged
  | fixedText =>
    simp only
    split
    · exact arranged_cons ‹_› (fun toEnd => nomatch toEnd.1) arranged
    · trivial
  | bits =>
    simp only
    split
    · exact arranged_cons ‹_› (fun toEnd => nomatch toEnd.1) arranged
    · trivial
  | raw | sizedRaw =>
    cases count with
    | some count =>
      exact arranged_cons trivial (fun toEnd => nomatch toEnd.2) arranged
    | none =>
      cases last with
      | true => exact ⟨trivial, fun _ => ends rfl, arranged⟩
      | false => exact arranged_cons rfl (fun toEnd => nomatch toEnd.1) arranged
  | scalar scalar => exact arranged_replicate scalar _ _ arranged

theorem scan_arranged (count : Option Count) (offset : Nat) (bytes : List UInt8) :
    Arranged (scan count offset bytes).leading := by
  induction bytes generalizing count offset with
  | nil => cases count <;> trivial
  | cons byte rest ih =>
    rw [scan]
    cases digit? byte with
    | some digit =>
      cases count with
      | none => exact ih _ _
      | some count =>
        simp only
        split
        · exact ih _ _
        · trivial
    | none =>
      simp only
      cases Tag.ofByte? byte with
      | none => trivial
      | some tag =>
        refine ofItem_arranged _ _ _ _ _ ?_ (ih _ _)
        intro last
        rw [List.isEmpty_iff.mp last]
        rfl

/-- The sizes of the fields of an item are its count, or one. -/
private theorem ofItem_words (offset : Nat) {count : Option Nat} (tag : Tag) (last : Bool)
    {rest : Layout} (word : count.getD 1 < UInt64.size)
    (later : ∀ field ∈ rest.leading, field.size < UInt64.size) :
    ∀ field ∈ (ofItem offset count tag last rest).leading, field.size < UInt64.size := by
  have first : ∀ one : Field, one.size < UInt64.size →
      ∀ field ∈ one :: rest.leading, field.size < UInt64.size := by
    intro one small field found
    rcases List.mem_cons.mp found with rfl | behind
    · exact small
    · exact later field behind
  unfold ofItem
  cases tag with
  | padding | text | raw | sizedRaw => exact first _ word
  | fixedText | bits =>
    simp only
    split
    · exact first _ word
    · exact fun _ found => nomatch found
  | scalar scalar =>
    intro field found
    rcases List.mem_append.mp found with copy | behind
    · rw [List.eq_of_mem_replicate copy]
      exact (by decide : 1 < UInt64.size)
    · exact later field behind

/-- The size of a field is a word. -/
theorem scan_words {count : Option Count}
    (word : ∀ begun, count = some begun → begun.value < UInt64.size) (offset : Nat)
    (bytes : List UInt8) :
    ∀ field ∈ (scan count offset bytes).leading, field.size < UInt64.size := by
  induction bytes generalizing count offset with
  | nil => cases count <;> exact fun _ found => nomatch found
  | cons byte rest ih =>
    rw [scan]
    cases read : digit? byte with
    | some digit =>
      have small : digit < UInt64.size := by
        rw [digit?] at read
        split at read
        · cases read
          simp only [UInt64.size]
          omega
        · cases read
      cases count with
      | none =>
        apply ih
        rintro _ ⟨⟩
        exact small
      | some count =>
        simp only
        split
        · apply ih
          rintro _ ⟨⟩
          exact ‹_›
        · exact fun _ found => nomatch found
    | none =>
      simp only
      cases Tag.ofByte? byte with
      | none => exact fun _ found => nomatch found
      | some tag =>
        apply ofItem_words
        · cases count with
          | none => decide
          | some count => exact word count rfl
        · exact ih (by nofun) _

theorem ofText_arranged (read : ofText text = .ok layout) : Arranged layout.leading := by
  unfold ofText at read
  split at read
  · cases read
  · split at read
    · cases read
    · cases read
    · cases read
    · split at read
      · cases read
      · cases read
        exact scan_arranged _ _ _
    · cases read
      exact scan_arranged _ _ _

theorem ofText_words (read : ofText text = .ok layout) :
    ∀ field ∈ layout.leading, field.size < UInt64.size := by
  unfold ofText at read
  split at read
  · cases read
  · split at read
    · cases read
    · cases read
    · cases read
    · split at read
      · cases read
      · cases read
        exact scan_words (by nofun) _ _
    · cases read
      exact scan_words (by nofun) _ _

end Layout

/-- The fields of a descriptor, or its first fault. -/
def Descriptor.fields (text : String) : Except Descriptor.Error (List Field) :=
  (Layout.ofText text).bind Layout.fields

theorem Descriptor.fields_eq_ok_iff {text : String} {all : List Field} :
    fields text = .ok all ↔
      ∃ layout, Layout.ofText text = .ok layout ∧ layout.fault? = none ∧ layout.leading = all := by
  unfold fields
  cases Layout.ofText text with
  | error error => exact ⟨fun read => (nomatch read), fun ⟨_, opened, _⟩ => (nomatch opened)⟩
  | ok layout =>
    constructor
    · intro read
      exact ⟨layout, rfl, (layout.fields_eq_ok_iff all).mp read⟩
    · rintro ⟨_, opened, sound⟩
      cases opened
      exact (layout.fields_eq_ok_iff all).mpr sound

/-- The fields of a descriptor before its first fault; all of them where there is none. -/
def Descriptor.leading (text : String) : List Field :=
  match Layout.ofText text with
  | .ok layout => layout.leading
  | .error _ => []

theorem Descriptor.leading_of_ofText {text : String} {layout : Layout}
    (opened : Layout.ofText text = .ok layout) : leading text = layout.leading := by
  rw [leading, opened]

theorem Descriptor.leading_eq {text : String} {all : List Field} (read : fields text = .ok all) :
    leading text = all := by
  obtain ⟨layout, opened, _, rfl⟩ := fields_eq_ok_iff.mp read
  rw [leading, opened]

theorem Descriptor.leading_arranged (text : String) : Arranged (leading text) := by
  cases opened : Layout.ofText text with
  | error error =>
    rw [leading, opened]
    trivial
  | ok layout =>
    rw [leading_of_ofText opened]
    exact Layout.ofText_arranged opened

theorem Descriptor.fields_arranged (read : fields text = .ok all) : Arranged all := by
  obtain ⟨layout, opened, _, rfl⟩ := fields_eq_ok_iff.mp read
  exact Layout.ofText_arranged opened

end OrderPack
