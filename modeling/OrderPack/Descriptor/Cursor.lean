import OrderPack.Descriptor.Layout

/-! Reading a descriptor one field at a time. A cursor is the layout still ahead
of it and the layout it began with, so that it can begin again. -/
namespace OrderPack

namespace Layout

/-- The next field, if one is left, and what lies ahead after it. A fault counts
as passed once it is reported, but for a letter that no reading gets past. -/
def advance : Layout → Except Descriptor.Error (Option Field) × Layout
  | .ended => (.ok none, .ended)
  | .single field rest => (.ok (some field), rest)
  | .repeated _ 0 rest => rest.advance
  | .repeated scalar (copies + 1) rest =>
    (.ok (some (Field.ofScalar scalar)), .repeated scalar copies rest)
  | .malformed error rest => (.error error, rest)
  | .stuck error => (.error error, .stuck error)

end Layout

/-- A place in a descriptor. -/
structure Cursor where
  origin : Layout
  ahead : Layout
  deriving DecidableEq

namespace Cursor

/-- A cursor before the first field. -/
def ofText (text : String) : Except Descriptor.Error Cursor := do
  let layout ← Layout.ofText text
  return ⟨layout, layout⟩

/-- The next field, if one is left, and the cursor after it. -/
def advance (cursor : Cursor) : Except Descriptor.Error (Option Field) × Cursor :=
  let (answer, ahead) := cursor.ahead.advance
  (answer, { cursor with ahead })

/-- The cursor before the first field again; repetitions still due are dropped. -/
def reset (cursor : Cursor) : Cursor := { cursor with ahead := cursor.origin }

/-- Every field of the descriptor, wherever the cursor stands. -/
def fields (cursor : Cursor) : Except Descriptor.Error (List Field) := cursor.origin.fields

end Cursor

end OrderPack
