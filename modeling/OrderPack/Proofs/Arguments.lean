import OrderPack.Arguments
import OrderPack.Proofs.Descriptor.Fields

/-! For which fields JSON arguments are taken. The items are given, in their order, to the
fields that hold a value; a field is known by its place among all fields, padding
counted. -/
namespace OrderPack

namespace Field

theorem holdsValue_of_kind {field : Field} (kind : field.tag.kind? = some found) :
    field.holdsValue = true := by
  obtain ⟨tag, size, sized⟩ := field
  cases tag with
  | padding => cases kind
  | _ => rfl

theorem skips_of_kind {field : Field} (none : field.tag.kind? = none) :
    field.holdsValue = false := by
  obtain ⟨tag, size, sized⟩ := field
  cases tag with
  | padding => rfl
  | scalar scalar => cases scalar <;> cases none
  | _ => cases none

end Field

namespace Arguments

/-- The fields that hold a value, each with its place and its kind. The first of all fields
has the place that is given. -/
def placed : (place : Nat) → List Field → List (Nat × ValueKind)
  | _, [] => []
  | place, field :: fields =>
    match field.tag.kind? with
    | some kind => (place, kind) :: placed (place + 1) fields
    | none => placed (place + 1) fields

theorem placed_append (place : Nat) (first second : List Field) :
    placed place (first ++ second) =
      placed place first ++ placed (place + first.length) second := by
  induction first generalizing place with
  | nil => rfl
  | cons field first ih =>
    rw [List.cons_append, placed, placed, ih, List.length_cons, Nat.add_assoc, Nat.add_comm 1]
    cases field.tag.kind? <;> rfl

theorem placed_replicate (place : Nat) (scalar : Scalar) (copies : Nat) :
    placed place (List.replicate copies (Field.ofScalar scalar)) =
      (List.range copies).map fun i => (place + i, scalar.kind) := by
  induction copies with
  | zero => rfl
  | succ copies ih =>
    rw [List.replicate_succ', placed_append, ih, List.range_succ, List.map_append,
      List.length_replicate]
    rfl

/-- A field that is placed stands there, behind as many that hold a value as come before
it. -/
theorem placed_getElem? {first place index : Nat} {kind : ValueKind} {fields : List Field}
    (stands : (placed first fields)[index]? = some (place, kind)) :
    ∃ behind field, place = first + behind ∧ fields[behind]? = some field ∧
      field.tag.kind? = some kind ∧ (fields.take behind).countP Field.holdsValue = index := by
  induction fields generalizing first index with
  | nil => cases stands
  | cons field fields ih =>
    rw [placed] at stands
    cases found : field.tag.kind? with
    | none =>
      rw [found] at stands
      obtain ⟨behind, later, rfl, stands, kind, before⟩ := ih stands
      refine ⟨behind + 1, later, by omega, stands, kind, ?_⟩
      rw [List.take_succ_cons, List.countP_cons_of_neg, before]
      rw [Field.skips_of_kind found]
      exact Bool.false_ne_true
    | some own =>
      rw [found] at stands
      cases index with
      | zero =>
        cases stands
        exact ⟨0, field, rfl, rfl, found, rfl⟩
      | succ index =>
        obtain ⟨behind, later, rfl, stands, kind, before⟩ := ih stands
        refine ⟨behind + 1, later, by omega, stands, kind, ?_⟩
        rw [List.take_succ_cons, List.countP_cons_of_pos (Field.holdsValue_of_kind found), before]

/-- The places that are looked for are found, unless the descriptor ends before or a fault
comes first. -/
theorem places_eq (wanted place : Nat) (layout : Layout) :
    places wanted place layout =
      if wanted ≤ (placed place layout.leading).length then
        .ok ((placed place layout.leading).take wanted)
      else
        match layout.fault? with
        | none => .ok (placed place layout.leading)
        | some error => .error error := by
  induction layout generalizing wanted place with
  | ended | malformed | stuck => cases wanted <;> rfl
  | single field rest ih =>
    cases wanted with
    | zero => rfl
    | succ wanted =>
      rw [places, Layout.leading, placed, Layout.fault?]
      cases field.tag.kind? with
      | none => exact ih (wanted + 1) (place + 1)
      | some kind =>
        simp only
        rw [ih, List.length_cons, List.take_succ_cons]
        by_cases enough : wanted ≤ (placed (place + 1) rest.leading).length
        · rw [if_pos enough, if_pos (Nat.succ_le_succ enough)]
          rfl
        · rw [if_neg enough, if_neg fun more => enough (Nat.le_of_succ_le_succ more)]
          cases rest.fault? <;> rfl
  | repeated scalar copies rest ih =>
    cases wanted with
    | zero => rfl
    | succ wanted =>
      -- No more copies are placed than are wanted; if they are fewer, the rest is looked into.
      have left : wanted + 1 - min copies (wanted + 1) = wanted + 1 - copies := by omega
      rw [places, Layout.leading, placed_append, placed_replicate, Layout.fault?,
        List.length_replicate, ih, left, List.take_append, ← List.map_take, List.take_range,
        Nat.min_comm, List.length_append, List.length_map, List.length_range]
      by_cases enough : wanted + 1 - copies ≤ (placed (place + copies) rest.leading).length
      · rw [if_pos enough, if_pos (Nat.sub_le_iff_le_add'.mp enough)]
        rfl
      · rw [if_neg enough, if_neg fun more => enough (Nat.sub_le_iff_le_add'.mpr more)]
        have all : min (wanted + 1) copies = copies := by omega
        rw [all]
        cases rest.fault? <;> rfl

theorem getElem?_of_places {wanted place index : Nat} {layout : Layout}
    {kinds : List (Nat × ValueKind)} (found : places wanted place layout = .ok kinds)
    (early : index < wanted) : kinds[index]? = (placed place layout.leading)[index]? := by
  rw [places_eq] at found
  split at found
  · cases found
    rw [List.getElem?_take_of_lt early]
  · split at found
    · cases found
      rfl
    · cases found

private theorem error_of_map {α β ε : Type} {given : Except ε α} {make : α → β} {error : ε}
    (failed : given.map make = .error error) : given = .error error := by
  cases given with
  | ok value => cases failed
  | error cause => exact congrArg Except.error (Except.error.inj failed)

/-- An item that is found not to be of the kind of its field is the first such item. -/
theorem convert_wrongKind {kinds : List (Nat × ValueKind)} {items : List Json} {first : Nat}
    (failed : convert first kinds items = .error (.wrongKind item place kind shown)) :
    ∃ behind json, item = first + behind ∧ kinds[behind]? = some (place, kind) ∧
      items[behind]? = some json ∧ coerce? kind json = none ∧
      ∀ (earlier place : Nat) (kind : ValueKind) (json : Json), earlier < behind →
        kinds[earlier]? = some (place, kind) → items[earlier]? = some json →
        coerce? kind json ≠ none := by
  induction items generalizing first kinds with
  | nil => cases kinds <;> cases failed
  | cons json items ih =>
    match kinds with
    | [] =>
      rw [convert] at failed
      split at failed
      · obtain ⟨_, _, _, none, _⟩ := ih (error_of_map failed)
        cases none
      · cases failed
    | (ownPlace, own) :: kinds =>
      rw [convert] at failed
      cases coerced : coerce? own json with
      | none =>
        rw [coerced] at failed
        cases failed
        exact ⟨0, json, rfl, rfl, rfl, coerced, fun _ _ _ _ before => nomatch before⟩
      | some value =>
        rw [coerced] at failed
        obtain ⟨behind, wrong, rfl, stands, given, refused, before⟩ := ih (error_of_map failed)
        refine ⟨behind + 1, wrong, by omega, stands, given, refused, ?_⟩
        intro earlier place kind json early known item
        cases earlier with
        | zero =>
          cases known
          cases item
          rw [coerced]
          exact Option.some_ne_none value
        | succ earlier =>
          exact before earlier place kind json (Nat.lt_of_succ_lt_succ early) known item

/-- The first item that its field does not take, and the place of this field among all
fields. -/
structure Refuses (fields : List Field) (items : List Json) (place item : Nat)
    (kind : ValueKind) : Prop where
  stands : ∃ field, fields[place]? = some field ∧ field.tag.kind? = some kind
  behind : (fields.take place).countP Field.holdsValue = item
  given : ∃ json, items[item]? = some json ∧ coerce? kind json = none
  before : ∀ (earlier place : Nat) (kind : ValueKind) (json : Json), earlier < item →
    (placed 0 fields)[earlier]? = some (place, kind) → items[earlier]? = some json →
    coerce? kind json ≠ none

/-- An item that is reported is refused by the field that is reported with it. -/
theorem values_wrongKind {descriptor : String} {arguments : Json}
    (failed : values descriptor arguments = .error (.wrongKind item place kind shown)) :
    ∃ items, arguments = .array items ∧
      Refuses (Descriptor.leading descriptor) items place item kind := by
  cases arguments with
  | array items =>
    refine ⟨items, rfl, ?_⟩
    rw [values] at failed
    cases opened : Layout.ofText descriptor with
    | error cause =>
      rw [opened] at failed
      cases failed
    | ok layout =>
      simp only [opened] at failed
      cases found : places items.length 0 layout with
      | error cause =>
        rw [found] at failed
        cases failed
      | ok kinds =>
        simp only [found] at failed
        obtain ⟨_, json, rfl, stands, given, refused, before⟩ := convert_wrongKind failed
        rw [Nat.zero_add, Descriptor.leading, opened]
        have early := (List.getElem?_eq_some_iff.mp given).1
        rw [getElem?_of_places found early] at stands
        obtain ⟨_, field, rfl, stands, own, behind⟩ := placed_getElem? stands
        rw [Nat.zero_add]
        refine ⟨⟨field, stands, own⟩, behind, ⟨json, given, refused⟩, ?_⟩
        intro earlier place kind json first known
        rw [← getElem?_of_places found (Nat.lt_trans first early)] at known
        exact before earlier place kind json first known
  | _ => cases failed

end Arguments

end OrderPack
