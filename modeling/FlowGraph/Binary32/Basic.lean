/-!
# Single-precision numbers

A number is carried as its 32-bit IEEE 754 pattern and never computed with, so
the pattern is the value.  The sign is the top bit; the remaining 31 bits, read
as a natural number, are the *magnitude*.  Magnitudes below `infinity` are the
finite numbers, in increasing order of absolute value.

Every finite number is a whole multiple of 2⁻¹⁴⁹.  `units` gives that multiple,
which turns comparisons with decimals into exact arithmetic on naturals.
-/

namespace FlowGraph

/-- A single-precision number, given by its bit pattern. -/
structure Binary32 where
  bits : UInt32
  deriving DecidableEq, Inhabited

namespace Binary32

/-- The magnitude shared by the two infinities; larger magnitudes are NaNs. -/
def infinity : Nat := 0x7f800000

/-- The magnitude of the quiet NaN with an empty payload. -/
def quietNaN : Nat := 0x7fc00000

/-- Whether the sign bit, which weighs 2³¹, is set. -/
def isNegative (x : Binary32) : Bool :=
  0x80000000 ≤ x.bits.toNat

/-- The pattern without its sign bit. -/
def magnitude (x : Binary32) : Nat :=
  x.bits.toNat % 0x80000000

/-- The number with the given sign and magnitude. -/
def ofMagnitude (negative : Bool) (magnitude : Nat) : Binary32 :=
  ⟨UInt32.ofNat ((if negative then 0x80000000 else 0) + magnitude)⟩

/-- Positive zero. -/
def zero : Binary32 := ⟨0⟩

def isNaN (x : Binary32) : Bool :=
  infinity < x.magnitude

def isInfinite (x : Binary32) : Bool :=
  x.magnitude == infinity

/-- Numeric equality: a NaN differs from everything, itself included, and the
two zeros are equal. -/
def equals (x y : Binary32) : Bool :=
  !x.isNaN && !y.isNaN && (x == y || (x.magnitude == 0 && y.magnitude == 0))

/-- The absolute value of the finite number with the given magnitude, as a
multiple of 2⁻¹⁴⁹.  At `infinity` it is 2¹²⁸, the first value out of range. -/
def units (magnitude : Nat) : Nat :=
  if magnitude < 0x800000 then magnitude
  else (0x800000 + magnitude % 0x800000) <<< (magnitude / 0x800000 - 1)

/-- A number is determined by its sign and its magnitude. -/
theorem ofMagnitude_magnitude (x : Binary32) :
    ofMagnitude x.isNegative x.magnitude = x := by
  obtain ⟨bits⟩ := x
  have hlt : bits.toNat < 2 ^ 32 := bits.toNat_lt
  have hsum : (if 0x80000000 ≤ bits.toNat then 0x80000000 else 0) + bits.toNat % 0x80000000
      = bits.toNat := by
    split <;> omega
  simp only [ofMagnitude, isNegative, magnitude, decide_eq_true_eq, hsum, UInt32.ofNat_toNat]

end Binary32

end FlowGraph
