import Mathlib.Algebra.Group.Nat.Even
import Mathlib.Data.List.Count
import OrderPack.Proofs.Table

/-! Which texts are closed. A text that describes a table is scanned with a count of the open
brackets and a mark for an open quote. What the count comes to is said here by a stack of open
brackets: every bracket that closes takes the innermost one, and none is left in the end. A count
forgets of which kind a bracket was, so a group that begins with one kind and ends with the other
counts as closed. Such groups are the only texts that are accepted and do not match. -/
namespace OrderPack.Table

def Opening (c : Char) : Prop := c = '(' ∨ c = '['

def Closing (c : Char) : Prop := c = ')' ∨ c = ']'

/-- A bracket may close any other. -/
def AnyKind (_ _ : Char) : Prop := True

/-- A bracket closes one of its own kind. -/
def SameKind (opener closer : Char) : Prop :=
  opener = '(' ∧ closer = ')' ∨ opener = '[' ∧ closer = ']'

/-- The characters of a text outside of quotes, without the quotes. The text begins within a
quote if `quoted`. -/
def unquoted (quoted : Bool) : List Char → List Char
  | [] => []
  | c :: rest =>
    if c = '"' then unquoted (!quoted) rest
    else if quoted then unquoted quoted rest
    else c :: unquoted quoted rest

/-- A text that closes a stack of open brackets, the innermost first, and all that it opens
itself. A closing bracket takes the innermost open one, which must be one of its mates. -/
inductive Closes (mates : Char → Char → Prop) : List Char → List Char → Prop where
  | ended : Closes mates [] []
  | plain {c : Char} (opens : ¬Opening c) (closes : ¬Closing c) (later : Closes mates stack text) :
      Closes mates stack (c :: text)
  | opening {c : Char} (opens : Opening c) (later : Closes mates (c :: stack) text) :
      Closes mates stack (c :: text)
  | closing {c : Char} (closes : Closing c) (mate : mates opener c)
      (later : Closes mates stack text) : Closes mates (opener :: stack) (c :: text)

/-- Quotes are closed, and outside of them every closing bracket has an open one before it and
every opening bracket is closed, by whichever kind. -/
structure Balanced (text : List Char) : Prop where
  brackets : Closes AnyKind [] (unquoted false text)
  quotes : Even (text.count '"')

/-- Quotes are closed, and outside of them brackets are nested and close their own kind. -/
structure Matched (text : List Char) : Prop where
  brackets : Closes SameKind [] (unquoted false text)
  quotes : Even (text.count '"')

/-- There is a group that begins with a bracket of one kind and ends with one of the other. -/
def Crosses (text : List Char) : Prop :=
  ∃ before opener inner closer behind, text = before ++ opener :: (inner ++ closer :: behind) ∧
    Opening opener ∧ Closing closer ∧ Closes AnyKind [] inner ∧ ¬SameKind opener closer

/-- There is such a group outside of quotes. -/
def Crossed (text : List Char) : Prop := Crosses (unquoted false text)

theorem Opening.not_closing {c : Char} (opens : Opening c) : ¬Closing c := by
  rintro closes
  rcases opens with rfl | rfl <;> rcases closes with closes | closes <;> cases closes

section Closes
variable {mates : Char → Char → Prop} {c opener : Char} {stack text : List Char}

theorem closes_nil_iff : Closes mates stack [] ↔ stack = [] := by
  constructor
  · intro closes
    cases closes
    rfl
  · rintro rfl
    exact .ended

theorem closes_plain_iff (opens : ¬Opening c) (closes : ¬Closing c) :
    Closes mates stack (c :: text) ↔ Closes mates stack text := by
  constructor
  · intro row
    cases row with
    | plain _ _ later => exact later
    | opening begins => exact absurd begins opens
    | closing ends => exact absurd ends closes
  · exact .plain opens closes

theorem closes_opening_iff (opens : Opening c) :
    Closes mates stack (c :: text) ↔ Closes mates (c :: stack) text := by
  constructor
  · intro row
    cases row with
    | plain begins => exact absurd opens begins
    | opening _ later => exact later
    | closing ends => exact absurd ends opens.not_closing
  · exact .opening opens

theorem closes_closing_iff (closes : Closing c) :
    Closes mates (opener :: stack) (c :: text) ↔ mates opener c ∧ Closes mates stack text := by
  constructor
  · intro row
    cases row with
    | plain _ ends => exact absurd closes ends
    | opening begins => exact absurd closes begins.not_closing
    | closing _ mate later => exact ⟨mate, later⟩
  · rintro ⟨mate, later⟩
    exact .closing closes mate later

theorem not_closes_closing (closes : Closing c) : ¬Closes mates [] (c :: text) := by
  intro row
  cases row with
  | plain _ ends => exact ends closes
  | opening begins => exact begins.not_closing closes

end Closes

namespace Closes
variable {mates : Char → Char → Prop} {stack text : List Char}

theorem imp {others : Char → Char → Prop} (row : Closes mates stack text)
    (more : ∀ opener closer, mates opener closer → others opener closer) :
    Closes others stack text := by
  induction row with
  | ended => exact .ended
  | plain opens closes _ ih => exact .plain opens closes ih
  | opening opens _ ih => exact .opening opens ih
  | closing closes mate _ ih => exact .closing closes (more _ _ mate) ih

/-- Texts that close their stacks, one after the other. -/
theorem append {own inner : List Char} (row : Closes mates own inner)
    (later : Closes mates stack text) : Closes mates (own ++ stack) (inner ++ text) := by
  induction row with
  | ended => exact later
  | plain opens closes _ ih => exact .plain opens closes ih
  | opening opens _ ih => exact .opening opens ih
  | closing closes mate _ ih => exact .closing closes mate ih

/-- What is behind some of a text closes what is open there. -/
theorem behind {front back : List Char} (row : Closes mates stack (front ++ back)) :
    ∃ left, Closes mates left back := by
  induction front generalizing stack with
  | nil => exact ⟨stack, row⟩
  | cons c front ih =>
    cases row with
    | plain _ _ later | opening _ later | closing _ _ later => exact ih later

/-- A text that closes as many brackets as are on top of a stack leaves the others to the rest. -/
theorem past {own inner : List Char} (kept : List Char) (row : Closes AnyKind own inner)
    (same : kept.length = own.length) (whole : Closes mates (kept ++ stack) (inner ++ text)) :
    Closes mates stack text := by
  induction row generalizing kept with
  | ended =>
    cases List.eq_nil_of_length_eq_zero same
    exact whole
  | plain opens closes _ ih => exact ih kept same ((closes_plain_iff opens closes).mp whole)
  | @opening own inner c opens _ ih =>
    have deeper : (c :: kept).length = (c :: own).length := congrArg (· + 1) same
    exact ih (c :: kept) deeper ((closes_opening_iff opens).mp whole)
  | closing closes _ _ ih =>
    cases kept with
    | nil => cases same
    | cons opener kept =>
      exact ih kept (Nat.succ_inj.mp same) ((closes_closing_iff closes).mp whole).2

/-- An open bracket is closed behind a text that closes all it opens. -/
theorem split {opener : Char} (own : List Char)
    (row : Closes mates (own ++ opener :: stack) text) :
    ∃ inner closer behind, text = inner ++ closer :: behind ∧ Closes mates own inner ∧
      Closing closer ∧ mates opener closer ∧ Closes mates stack behind := by
  generalize whole : own ++ opener :: stack = all at row
  induction row generalizing own with
  | ended => simp at whole
  | @plain _ text c opens closes _ ih =>
    obtain ⟨inner, closer, behind, rfl, closed, others⟩ := ih own whole
    exact ⟨c :: inner, closer, behind, rfl, .plain opens closes closed, others⟩
  | @opening _ text c opens _ ih =>
    have deeper : (c :: own) ++ opener :: stack = c :: _ := congrArg (c :: ·) whole
    obtain ⟨inner, closer, behind, rfl, closed, others⟩ := ih (c :: own) deeper
    exact ⟨c :: inner, closer, behind, rfl, .opening opens closed, others⟩
  | @closing first stack text c closes mate later ih =>
    cases own with
    | nil =>
      cases whole
      exact ⟨[], c, text, rfl, .ended, closes, mate, later⟩
    | cons top own =>
      cases whole
      obtain ⟨inner, closer, behind, rfl, closed, others⟩ := ih own rfl
      exact ⟨c :: inner, closer, behind, rfl, .closing closes mate closed, others⟩

end Closes

theorem Crosses.within {middle : List Char} (crosses : Crosses middle) (front back : List Char) :
    Crosses (front ++ middle ++ back) := by
  obtain ⟨before, opener, inner, closer, behind, rfl, others⟩ := crosses
  exact ⟨front ++ before, opener, inner, closer, behind ++ back, by simp, others⟩

/-- Brackets that are closed by whichever kind are closed by their own, or two of them cross. -/
theorem closes_or_crosses (text : List Char) (row : Closes AnyKind [] text) :
    Closes SameKind [] text ∨ Crosses text := by
  cases row with
  | ended => exact .inl .ended
  | @plain _ rest c opens closes later =>
    rcases closes_or_crosses rest later with closed | crosses
    · exact .inl (.plain opens closes closed)
    · exact .inr (by simpa using crosses.within [c] [])
  | @opening _ rest opener opens later =>
    obtain ⟨inner, closer, behind, rfl, group, closes, _, others⟩ := Closes.split [] later
    rcases closes_or_crosses inner group with inside | crosses
    · rcases closes_or_crosses behind others with outside | crosses
      · by_cases same : SameKind opener closer
        · exact .inl (.opening opens (inside.append (.closing closes same outside)))
        · exact .inr ⟨[], opener, inner, closer, behind, rfl, opens, closes, group, same⟩
      · exact .inr (by simpa using crosses.within (opener :: (inner ++ [closer])) [])
    · exact .inr (by simpa using crosses.within [opener] (closer :: behind))
termination_by text.length

theorem Closes.not_crosses {text : List Char} (row : Closes SameKind [] text) : ¬Crosses text := by
  rintro ⟨before, opener, inner, closer, behind, rfl, opens, closes, group, other⟩
  obtain ⟨left, later⟩ := row.behind
  have opened := (closes_opening_iff opens).mp later
  have reached := group.past [] rfl opened
  exact other ((closes_closing_iff closes).mp reached).1

/-- Brackets match if they are closed and none of them cross. -/
theorem matched_iff (text : List Char) : Matched text ↔ Balanced text ∧ ¬Crossed text := by
  constructor
  · rintro ⟨brackets, quotes⟩
    exact ⟨⟨brackets.imp fun _ _ _ => trivial, quotes⟩, brackets.not_crosses⟩
  · rintro ⟨⟨brackets, quotes⟩, apart⟩
    rcases closes_or_crosses _ brackets with closed | crosses
    · exact ⟨closed, quotes⟩
    · exact absurd crosses apart

namespace Nesting

/-- What surrounds the place behind a text, or `none` if a bracket of it closes what nothing
opened. -/
def run (nesting : Nesting) : List Char → Option Nesting
  | [] => some nesting
  | c :: rest => (nesting.after? c).bind (run · rest)

theorem run_append (nesting : Nesting) (front back : List Char) :
    nesting.run (front ++ back) = (nesting.run front).bind (run · back) := by
  induction front generalizing nesting with
  | nil => rfl
  | cons c rest ih =>
    rw [List.cons_append, run, run]
    cases nesting.after? c with
    | none => rfl
    | some next => exact ih next

/-- The scan of a text ends outside of all brackets and quotes just if the text closes the open
brackets, which are as many as are counted, and the quote, if one is open. -/
theorem run_eq_outside_iff (stack : List Char) (quoted : Bool) (text : List Char) :
    run ⟨stack.length, quoted⟩ text = some .outside ↔
      Closes AnyKind stack (unquoted quoted text) ∧
        (quoted = true ↔ ¬Even (text.count '"')) := by
  induction text generalizing stack quoted with
  | nil => simp [run, unquoted, closes_nil_iff, outside]
  | cons c rest ih =>
    by_cases quote : c = '"'
    · subst quote
      have parity : ((!quoted) = true ↔ ¬Even (rest.count '"')) ↔
          (quoted = true ↔ ¬Even (rest.count '"' + 1)) := by
        cases quoted <;> simp [Nat.even_add_one]
      have after : after? ⟨stack.length, quoted⟩ '"' = some ⟨stack.length, !quoted⟩ := rfl
      rw [run, after, Option.bind_some, ih stack (!quoted), parity, unquoted, if_pos rfl,
        List.count_cons_self]
    have count : (c :: rest).count '"' = rest.count '"' := by
      simp [quote]
    rw [count]
    cases quoted with
    | true => simpa [run, after?, unquoted, quote] using ih stack true
    | false =>
      by_cases opens : Opening c
      · have here : c = '(' ∨ c = '[' := opens
        simpa [run, after?, unquoted, quote, here, closes_opening_iff opens] using
          ih (c :: stack) false
      by_cases closes : Closing c
      · have here : c = ')' ∨ c = ']' := closes
        have elsewhere : ¬(c = '(' ∨ c = '[') := opens
        cases stack with
        | nil => simp [run, after?, unquoted, quote, here, elsewhere, not_closes_closing closes]
        | cons opener stack =>
          simpa [run, after?, unquoted, quote, here, elsewhere, closes_closing_iff closes, AnyKind]
            using ih stack false
      · have noOpening : ¬(c = '(' ∨ c = '[') := opens
        have noClosing : ¬(c = ')' ∨ c = ']') := closes
        simpa [run, after?, unquoted, quote, noOpening, noClosing, closes_plain_iff opens closes]
          using ih stack false

theorem run_outside_iff (text : List Char) :
    outside.run text = some .outside ↔ Balanced text := by
  have scanned := run_eq_outside_iff [] false text
  constructor
  · intro closed
    obtain ⟨brackets, quotes⟩ := scanned.mp closed
    exact ⟨brackets, by simpa using quotes⟩
  · rintro ⟨brackets, quotes⟩
    exact scanned.mpr ⟨brackets, by simpa using quotes⟩

end Nesting

theorem checkNesting_eq_ok_iff (nesting : Nesting) (offset : Nat) (text : List Char) :
    checkNesting nesting offset text = .ok () ↔ nesting.run text = some .outside := by
  induction text generalizing nesting offset with
  | nil => simp [checkNesting, Nesting.run]
  | cons c rest ih =>
    rw [checkNesting, Nesting.run]
    cases nesting.after? c with
    | none => simp
    | some next => exact ih next _

/-- A text that is not closed describes no table. -/
theorem ofConfig_of_not_balanced {config : String} (unclosed : ¬Balanced config.toList) :
    ∃ error, ofConfig config = .error error ∧ error.report.kind = .invalidFormat := by
  rw [ofConfig]
  cases nested : checkNesting .outside 0 config.toList with
  | error error => exact ⟨error, rfl, error.kind_eq⟩
  | ok closed =>
    rw [checkNesting_eq_ok_iff, Nesting.run_outside_iff] at nested
    exact absurd nested unclosed

theorem ofConfig_of_balanced {config : String} (balanced : Balanced config.toList) :
    ofConfig config =
      ofFormats (columnFormat (entries config) .key) (columnFormat (entries config) .value) := by
  have nested := (checkNesting_eq_ok_iff .outside 0 config.toList).mpr
    ((Nesting.run_outside_iff _).mpr balanced)
  simp only [ofConfig, nested, bind, Except.bind]

/-- What is accepted is closed, and what is not closed is malformed. A text whose brackets do not
match is malformed as well, unless two of its brackets cross: then they are closed by count and
still do not match. -/
theorem brackets_nested (config : String) :
    (∀ table, ofConfig config = .ok table →
      Balanced config.toList ∧ (Matched config.toList ∨ Crossed config.toList)) ∧
    (¬Matched config.toList → ¬Crossed config.toList →
      ∃ error, ofConfig config = .error error ∧ error.report.kind = .invalidFormat) ∧
    (Matched config.toList ↔ Balanced config.toList ∧ ¬Crossed config.toList) := by
  refine ⟨?_, ?_, matched_iff _⟩
  · intro table made
    have balanced : Balanced config.toList := by
      by_contra unclosed
      obtain ⟨_, failed, _⟩ := ofConfig_of_not_balanced unclosed
      cases failed.symm.trans made
    refine ⟨balanced, ?_⟩
    by_cases crossed : Crossed config.toList
    · exact .inr crossed
    · exact .inl ((matched_iff _).mpr ⟨balanced, crossed⟩)
  · intro unmatched apart
    exact ofConfig_of_not_balanced fun balanced => unmatched ((matched_iff _).mpr ⟨balanced, apart⟩)

/-- A list of columns that begins with a parenthesis and ends with a square bracket. -/
theorem crossed_list_accepted :
    ofConfig "columns=(id,name],key_format=S" = .ok ⟨"S", "u"⟩ ∧
      ¬Matched "columns=(id,name],key_format=S".toList := by
  refine ⟨by with_unfolding_all rfl, ?_⟩
  intro matched
  have inner : Closes AnyKind [] "id,name".toList :=
    ((Nesting.run_outside_iff "id,name".toList).mp (by decide)).brackets
  refine ((matched_iff _).mp matched).2
    ⟨"columns=".toList, '(', "id,name".toList, ']', ",key_format=S".toList, by decide, .inl rfl,
      .inr rfl, inner, ?_⟩
  rintro (⟨_, other⟩ | ⟨other, _⟩) <;> cases other

end OrderPack.Table
