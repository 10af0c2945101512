import Mathlib.Data.List.DropRight
import OrderPack.Text.Blank

/-! What is left of a text when its margins are cut: the part between two margins that begins and
ends with a character to keep. There is only one such part. -/
namespace OrderPack.Text

/-- The part of a text between its margins. The margins hold nothing else than what is dropped,
and the part neither begins nor ends with that. -/
structure Stripped (drop : Char → Bool) (text kept : List Char) : Prop where
  margins : ∃ front back, text = front ++ kept ++ back ∧
    (∀ c ∈ front, drop c = true) ∧ ∀ c ∈ back, drop c = true
  begins : ∀ c ∈ kept.head?, drop c = false
  ends : ∀ c ∈ kept.getLast?, drop c = false

section
variable {drop : Char → Bool} {text kept : List Char}

/-- A margin is dropped up to the first character that is kept. -/
theorem dropWhile_margin {front : List Char} (margin : ∀ c ∈ front, drop c = true)
    (begins : ∀ c ∈ text.head?, drop c = false) : (front ++ text).dropWhile drop = text := by
  rw [List.dropWhile_append_of_pos margin]
  cases text with
  | nil => rfl
  | cons c rest =>
    have stays : drop c = false := begins c rfl
    simp [stays]

theorem head?_dropWhile (drop : Char → Bool) (text : List Char) :
    ∀ c ∈ (text.dropWhile drop).head?, drop c = false := by
  intro c found
  have first := List.head?_dropWhile_not drop text
  rw [Option.mem_def.mp found] at first
  simpa using first

theorem strip_stripped (drop : Char → Bool) (text : List Char) :
    Stripped drop text (strip drop text) := by
  -- The margin in front goes first, and the margin behind is that of what is left.
  have whole : text = text.takeWhile drop ++ (text.dropWhile drop).rdropWhile drop ++
      (text.dropWhile drop).rtakeWhile drop := by
    rw [List.append_assoc, List.rdropWhile_append_rtakeWhile, List.takeWhile_append_dropWhile]
  refine ⟨⟨_, _, whole, fun c => List.mem_takeWhile_imp, fun c => List.mem_rtakeWhile_imp⟩, ?_, ?_⟩
  · intro c found
    obtain ⟨back, same⟩ := List.rdropWhile_prefix drop (text.dropWhile drop)
    apply head?_dropWhile drop text
    have first : ((text.dropWhile drop).rdropWhile drop).head? = some c := found
    rw [← same, List.head?_append, first]
    rfl
  · intro c found
    apply head?_dropWhile drop (text.dropWhile drop).reverse
    rwa [strip, List.getLast?_reverse] at found

/-- Margins are cut off to the one part that they leave. -/
theorem strip_eq_iff : strip drop text = kept ↔ Stripped drop text kept := by
  constructor
  · rintro rfl
    exact strip_stripped drop text
  · rintro ⟨⟨front, back, rfl, before, behind⟩, begins, ends⟩
    cases kept with
    | nil =>
      have dropped : (front ++ [] ++ back).dropWhile drop = [] := by
        apply List.dropWhile_eq_nil_iff.mpr
        simpa [or_imp, forall_and] using ⟨before, behind⟩
      rw [strip, dropped]
      rfl
    | cons c kept =>
      have left : (front ++ (c :: kept) ++ back).dropWhile drop = c :: kept ++ back := by
        rw [List.append_assoc]
        exact dropWhile_margin before begins
      have right : (c :: kept ++ back).reverse.dropWhile drop = (c :: kept).reverse := by
        rw [List.reverse_append]
        apply dropWhile_margin
        · simpa using behind
        · simpa only [List.head?_reverse] using ends
      rw [strip, left, right, List.reverse_reverse]

/-- A text with nothing to drop is all kept. -/
theorem stripped_of_none (none : ∀ c ∈ text, drop c = false) : Stripped drop text text :=
  ⟨⟨[], [], by simp, nofun, nofun⟩, fun c found => none c (List.mem_of_mem_head? found),
    fun c found => none c (List.mem_of_mem_getLast? found)⟩

end

end OrderPack.Text
