import OrderPack.Decimal.Binary64

/-! The fewest decimal digits from which a floating-point number reads back. All
numbers that round to `x` fill an interval around it; the search lays ever finer
decimal grids over that interval and stops at the first with a point inside. -/
namespace OrderPack.Binary64

/-- A decimal number `digits * 10 ^ exponent`. -/
structure Decimal where
  digits : Nat
  exponent : Int
  deriving DecidableEq

/-- The interval of the reals that round to a number. Its ends and the number
itself are given in one unit, a quarter of the last place. -/
structure Neighbourhood where
  low : Nat
  centre : Nat
  high : Nat
  /-- The power of two of the unit. -/
  unit : Int
  /-- A real at an end lies halfway and rounds to the even mantissa. -/
  closed : Bool

/-- The neighbourhood of a number. Below a power of two the numbers lie closer,
so the lower end is nearer there. -/
def neighbourhood (x : Binary64) : Neighbourhood :=
  let centre := 4 * x.mantissa
  let gap := if x.mantissa = leastNormal ∧ minExponent < x.exponent then 1 else 2
  ⟨centre - gap, centre, centre + 2, x.exponent - 2, x.mantissa % 2 = 0⟩

/-- The point of the grid `10 ^ exponent` inside the neighbourhood that is
nearest to its centre, an even one where two are equally near. -/
def gridPoint? (near : Neighbourhood) (exponent : Int) : Option Nat :=
  let mesh := Nat.pow 10 exponent.toNat <<< (-near.unit).toNat
  let scale := Nat.pow 10 (-exponent).toNat <<< near.unit.toNat
  let inside (point : Nat) : Bool :=
    if near.closed then near.low * scale ≤ point * mesh && point * mesh ≤ near.high * scale
    else near.low * scale < point * mesh && point * mesh < near.high * scale
  let below := near.centre * scale / mesh
  let nearest := roundHalfEven (near.centre * scale) mesh
  if inside nearest then some nearest
  else if inside below then some below
  else if inside (below + 1) then some (below + 1)
  else none

/-- Tries the grids from `10 ^ exponent` on downwards. -/
def refine (near : Neighbourhood) : (grids : Nat) → (exponent : Int) → Option Decimal
  | 0, _ => none
  | grids + 1, exponent =>
    match gridPoint? near exponent with
    | some digits => some ⟨digits, exponent⟩
    | none => refine near grids (exponent - 1)

/-- The shortest decimal for a number other than zero. The first grid is coarser
than the number itself; seventeen digits always suffice, and the search goes
some grids past both bounds. -/
def shortest (x : Binary64) : Decimal :=
  let magnitude : Int := (x.exponent + x.mantissa.log2) * 30103 / 100000
  (refine x.neighbourhood 24 (magnitude + 2)).getD ⟨x.mantissa, x.exponent⟩

end OrderPack.Binary64
