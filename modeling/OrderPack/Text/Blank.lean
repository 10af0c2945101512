/-! Blank characters and the cutting of blank margins. -/
namespace OrderPack.Text

/-- White space by the property White_Space of the Unicode standard. -/
def isBlank (c : Char) : Bool :=
  let point := c.toNat
  (0x9 ≤ point && point ≤ 0xd) || point == 0x20 || point == 0x85 || point == 0xa0
    || point == 0x1680 || (0x2000 ≤ point && point ≤ 0x200a) || point == 0x2028
    || point == 0x2029 || point == 0x202f || point == 0x205f || point == 0x3000

/-- Removes from both ends the characters that satisfy the predicate. -/
def strip (drop : Char → Bool) (chars : List Char) : List Char :=
  ((chars.dropWhile drop).reverse.dropWhile drop).reverse

/-- Removes blank characters from both ends. -/
def trim (chars : List Char) : List Char := strip isBlank chars

end OrderPack.Text
