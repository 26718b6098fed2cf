import FlowGraph.Binary32.Decimal

/-!
# The shortest decimal that reads back

The shortest decimal of a number is looked for on the grids of multiples of
10³⁸, 10³⁷, 10³⁶, …, from coarse to fine.  On each grid only the two neighbours
of the number can be nearest to it; the first grid on which one of them reads
back as the number wins.  If both do, the nearer is taken, and the upper one if
they are equally near.  The search ends at the latest on the grid of 10⁻¹⁴⁹, of
which every finite number is an exact multiple.
-/

namespace FlowGraph

namespace Binary32

/-- The quotient of `n` units by `10 ^ exponent`, as numerator and denominator. -/
def gridRatio (n : Nat) (exponent : Int) : Nat × Nat :=
  if 0 ≤ exponent then (n, Nat.pow 10 exponent.toNat <<< 149)
  else (n * Nat.pow 10 (-exponent).toNat, 1 <<< 149)

/-- The better of the two neighbours of a magnitude on the grid of
`10 ^ exponent`, if one of them reads back as the magnitude. -/
def gridNeighbour (magnitude : Nat) (exponent : Int) : Option Decimal :=
  let (num, den) := gridRatio (units magnitude) exponent
  let below : Decimal := ⟨num / den, exponent⟩
  let above : Decimal := ⟨num / den + 1, exponent⟩
  let belowReads := magnitudeOfDecimal below == magnitude
  let aboveReads := magnitudeOfDecimal above == magnitude
  if belowReads && aboveReads then
    if 2 * (num % den) < den then some below else some above
  else if belowReads then some below
  else if aboveReads then some above
  else none

/-- Search the grids from `10 ^ (steps - 149)` downwards. -/
def searchGrids (magnitude : Nat) : Nat → Decimal
  | 0 => ⟨units magnitude * Nat.pow 5 149, -149⟩
  | steps + 1 =>
    match gridNeighbour magnitude ((steps : Int) + 1 - 149) with
    | some d => d
    | none => searchGrids magnitude steps

/-- The decimal with the fewest digits that reads back as the given finite
magnitude. -/
def shortest (magnitude : Nat) : Decimal :=
  if magnitude = 0 then ⟨0, 0⟩ else searchGrids magnitude 187

end Binary32

end FlowGraph
