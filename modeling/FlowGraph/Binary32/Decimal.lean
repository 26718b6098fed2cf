import FlowGraph.Binary32.Basic

/-!
# Reading a decimal as a single-precision number

A decimal is rounded to the nearest number, a tie going to the even magnitude.
Because magnitudes are ordered like absolute values, rounding is a search for
the last magnitude whose value does not exceed the decimal, followed by one
comparison with the midpoint to the next.  A decimal beyond the largest finite
number rounds to `infinity` by the same rule.
-/

namespace FlowGraph

/-- The number `digits · 10 ^ exponent`. -/
structure Decimal where
  digits : Nat
  exponent : Int
  deriving DecidableEq, Repr

namespace Binary32

/-- The largest magnitude whose value is at most `n` units. -/
def floorMagnitude (n : Nat) : Nat :=
  let shift := n.log2 - 23
  shift * 0x800000 + n >>> shift

/-- The magnitude nearest to `num / den` units, a tie going to the even one. -/
def nearestMagnitude (num den : Nat) : Nat :=
  let below := floorMagnitude (num / den)
  if infinity ≤ below then infinity
  else
    let twice := 2 * num
    let middle := (units below + units (below + 1)) * den
    if twice < middle then below
    else if middle < twice then below + 1
    else if below % 2 = 0 then below
    else below + 1

/-- The magnitude nearest to a decimal.  Exponents far outside the range of
single precision are settled before any power is formed. -/
def magnitudeOfDecimal (d : Decimal) : Nat :=
  if d.digits = 0 then 0
  else if 40 ≤ d.exponent then infinity
  else if 0 ≤ d.exponent then
    nearestMagnitude ((d.digits * Nat.pow 10 d.exponent.toNat) <<< 149) 1
  else if d.exponent < -(d.digits.log2 + 60 : Nat) then 0
  else nearestMagnitude (d.digits <<< 149) (Nat.pow 10 (-d.exponent).toNat)

/-- The number nearest to a signed decimal. -/
def ofDecimal (negative : Bool) (d : Decimal) : Binary32 :=
  ofMagnitude negative (magnitudeOfDecimal d)

end Binary32

end FlowGraph
