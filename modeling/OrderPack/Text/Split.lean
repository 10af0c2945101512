import OrderPack.Text.Blank

/-! Cutting a text into pieces: between marks, into lines, into words. -/
namespace OrderPack.Text

/-- The pieces between the characters that satisfy the predicate, empty ones
included, so that there is always one piece more than there are such characters. -/
def splitBy (cut : Char → Bool) : List Char → List (List Char)
  | [] => [[]]
  | c :: rest =>
    if cut c then [] :: splitBy cut rest
    else
      match splitBy cut rest with
      | [] => [[c]]
      | piece :: others => (c :: piece) :: others

/-- The lines of a text. -/
def lines (chars : List Char) : List (List Char) := splitBy (· == '\n') chars

/-- The words of a text, which are separated by blank characters. -/
def words (chars : List Char) : List (List Char) :=
  (splitBy isBlank chars).filter (!·.isEmpty)

end OrderPack.Text
