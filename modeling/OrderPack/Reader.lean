import OrderPack.Report

/-! A place in a buffer: the bytes not yet read and how many stand before
them. Reading hands back the next place, so a reader that ran short still
stands where it was. -/
namespace OrderPack

/-- The bytes ahead, and the offset in the whole buffer at which they begin. -/
structure Reader where
  offset : Nat
  rest : List UInt8
  deriving DecidableEq

/-- The bytes ran out: so many more were needed by the item at this offset. -/
structure Shortage where
  offset : Nat
  needed : Nat
  deriving DecidableEq

/-- The only failure that more input could mend. -/
def Shortage.report (shortage : Shortage) : Report :=
  { kind := .truncatedInput
    message := some ("buffer ends before " ++ toString shortage.needed ++ " more byte(s)")
    offset := some shortage.offset }

namespace Reader

/-- The reader at an offset of a buffer. Past the end nothing is ahead. -/
def ofBuffer (buffer : List UInt8) (offset : Nat) : Reader :=
  ⟨offset, buffer.drop offset⟩

/-- The next `count` bytes, all of them or none. -/
def take (reader : Reader) (count : Nat) : Except Shortage (List UInt8 × Reader) :=
  if count ≤ reader.rest.length then
    .ok (reader.rest.take count, ⟨reader.offset + count, reader.rest.drop count⟩)
  else
    .error ⟨reader.offset, count - reader.rest.length⟩

end Reader

end OrderPack
