import FlowGraph.Binary32.Shortest

/-!
# Writing single-precision numbers

The digits are always those of the shortest decimal that reads back.  A
`Layout` decides what surrounds them.  Three layouts are in use: `plain` for
values shown to people, `diagnostic` for the inspection texts of nodes and
templates, and `document` for saved text.
-/

namespace FlowGraph

namespace Binary32

/-- What a written number looks like around its digits. -/
structure Layout where
  /-- An integral number in positional form ends in `.0`. -/
  keepsPoint : Bool
  /-- A nonzero number below 10⁻⁴ or from 10¹⁶ on is written with an exponent. -/
  usesExponent : Bool
  /-- A NaN whose sign bit is set is written with a minus. -/
  signsNaN : Bool

/-- Digits only: `1`, `0.1`, `10000000000000000`. -/
def Layout.plain : Layout := ⟨false, false, false⟩

/-- With a point or an exponent: `1.0`, `0.1`, `1e16`. -/
def Layout.diagnostic : Layout := ⟨true, true, false⟩

/-- With a point and never an exponent: `1.0`, `0.1`, `10000000000000000.0`. -/
def Layout.document : Layout := ⟨true, false, true⟩

def zeros (n : Nat) : List Char := List.replicate n '0'

/-- Positional form of a decimal. -/
def positional (keepsPoint : Bool) (d : Decimal) : List Char :=
  let digits := Nat.toDigits 10 d.digits
  if 0 ≤ d.exponent then
    digits ++ zeros d.exponent.toNat ++ (if keepsPoint then ['.', '0'] else [])
  else
    let places := (-d.exponent).toNat
    if places < digits.length then
      digits.take (digits.length - places) ++ '.' :: digits.drop (digits.length - places)
    else '0' :: '.' :: zeros (places - digits.length) ++ digits

/-- Exponent form of a decimal: one digit, the others behind a point, and the
power of ten. -/
def scientific (d : Decimal) : List Char :=
  let digits := Nat.toDigits 10 d.digits
  let power := d.exponent + (digits.length - 1 : Nat)
  let fraction := digits.drop 1
  digits.take 1 ++ (if fraction.isEmpty then [] else '.' :: fraction)
    ++ 'e' :: (toString power).toList

/-- The magnitude of the number nearest to 10⁻⁴. -/
def tenThousandth : Nat := 0x38d1b717

/-- The magnitude of the number nearest to 10¹⁶. -/
def tenQuadrillion : Nat := 0x5a0e1bca

/-- Whether a finite magnitude is written with an exponent by the layouts that
use one. -/
def isExtreme (magnitude : Nat) : Bool :=
  magnitude != 0 && (magnitude < tenThousandth || tenQuadrillion ≤ magnitude)

/-- The characters of a number in the given layout. -/
def write (layout : Layout) (x : Binary32) : List Char :=
  if x.isNaN then
    if layout.signsNaN && x.isNegative then ['-', 'N', 'a', 'N'] else ['N', 'a', 'N']
  else
    let body :=
      if x.isInfinite then ['i', 'n', 'f']
      else if layout.usesExponent && isExtreme x.magnitude then
        scientific (shortest x.magnitude)
      else positional layout.keepsPoint (shortest x.magnitude)
    if x.isNegative then '-' :: body else body

/-- The text of a number in the given layout. -/
def render (layout : Layout) (x : Binary32) : String :=
  String.ofList (x.write layout)

end Binary32

end FlowGraph
