/-! Binary floating point of 64 bits, as far as decimal text needs it: finite
numbers that are not negative, held as a mantissa and a power of two and rounded
in exact integer arithmetic, a half going to the even neighbour.

`Binary64.ofDecimal?` reads a significand and a power of ten. It scales by at
most one rounded power of ten at a time, so its result can differ in the last
place from the nearest number, and it says so by its steps: every step rounds. -/
namespace OrderPack

/-- A finite number `mantissa * 2 ^ exponent`. The mantissa has 53 bits, or fewer
at the least exponent, so each number has one representation. -/
structure Binary64 where
  mantissa : Nat
  exponent : Int
  deriving DecidableEq

namespace Binary64

/-- The exponent at which the mantissa may have leading zeros. -/
def minExponent : Int := -1074

/-- The exponent of the greatest finite numbers. -/
def maxExponent : Int := 971

/-- The least mantissa of 53 bits. -/
def leastNormal : Nat := 0x10000000000000

def zero : Binary64 := ⟨0, minExponent⟩

/-- The integer nearest to a quotient; a half goes to the even one. -/
def roundHalfEven (num den : Nat) : Nat :=
  let quotient := num / den
  let twice := 2 * (num % den)
  if twice < den then quotient
  else if den < twice then quotient + 1
  else quotient + quotient % 2

/-- The number nearest to `num / den * 2 ^ power`, or `none` beyond the greatest
finite one. -/
def nearest? (num den : Nat) (power : Int) : Option Binary64 :=
  let num := num <<< power.toNat
  let den := den <<< (-power).toNat
  if num = 0 then some zero else
  let guess : Int := num.log2 - den.log2
  let top := if den <<< guess.toNat ≤ num <<< (-guess).toNat then guess else guess - 1
  let unit := max (top - 52) minExponent
  let mantissa := roundHalfEven (num <<< (-unit).toNat) (den <<< unit.toNat)
  let number : Binary64 :=
    if mantissa = 2 * leastNormal then ⟨leastNormal, unit + 1⟩ else ⟨mantissa, unit⟩
  if number.exponent ≤ maxExponent then some number else none

/-- The number nearest to an integer. -/
def ofNat? (n : Nat) : Option Binary64 := nearest? n 1 0

/-- The rounded product. -/
def mul? (a b : Binary64) : Option Binary64 :=
  nearest? (a.mantissa * b.mantissa) 1 (a.exponent + b.exponent)

/-- The rounded quotient by a number that is not zero. -/
def div? (a b : Binary64) : Option Binary64 :=
  nearest? a.mantissa b.mantissa (a.exponent - b.exponent)

/-- The greatest power of ten that is a finite number. -/
def maxTenPower : Nat := 308

/-- Divides by `10 ^ power`, in steps where that power itself is out of range. A
quotient by a power of ten is no greater than the dividend, so it is in range. -/
def divTenPower (x : Binary64) (power : Nat) : Binary64 :=
  if x.mantissa = 0 then x
  else if power ≤ maxTenPower then quotient x power
  else divTenPower (quotient x maxTenPower) (power - maxTenPower)
termination_by power
decreasing_by simp only [maxTenPower] at *; omega
where
  /-- One division, by a power of ten that is in range. -/
  quotient (x : Binary64) (power : Nat) : Binary64 :=
    ((ofNat? (Nat.pow 10 power)).bind x.div?).getD zero

/-- The number that a significand and a power of ten denote, or `none` where
they are beyond the greatest finite number. -/
def ofDecimal? (significand : Nat) (power : Int) : Option Binary64 := do
  let x ← ofNat? significand
  if power < 0 then return x.divTenPower (-power).toNat
  if x.mantissa = 0 then return x
  if power ≤ maxTenPower then x.mul? (← ofNat? (Nat.pow 10 power.toNat)) else none

end Binary64

end OrderPack
