import FlowGraph.Binary32.Decimal

/-!
# Number tokens

A number is a run of letters, digits, signs and points.  A whole number has an
optional sign, digits in base 10, or in base 2, 8 or 16 behind `0b`, `0o` or `0x`,
and may end in the name of a type of whole numbers.  A decimal has an optional sign,
digits with an optional point, an optional exponent, and may end in `f32` or
`f64`; it may also be `inf` or `NaN`.  Underscores may stand between digits.
-/

namespace FlowGraph.Document

def isDecimalDigit (c : Char) : Bool := '0' ≤ c && c ≤ '9'

def isHexDigit (c : Char) : Bool :=
  isDecimalDigit c || ('a' ≤ c && c ≤ 'f') || ('A' ≤ c && c ≤ 'F')

/-- The value of a hexadecimal digit. -/
def digitValue (c : Char) : Nat :=
  if isDecimalDigit c then c.toNat - '0'.toNat
  else if 'a' ≤ c then c.toNat - 'a'.toNat + 10
  else c.toNat - 'A'.toNat + 10

/-- Split off a sign.  The first part says whether it is a minus. -/
def splitSign : List Char → Bool × List Char
  | '-' :: rest => (true, rest)
  | '+' :: rest => (false, rest)
  | token => (false, token)

/-- The number that digits of a base, with underscores among them, stand for after
a number already read. -/
def readDigits? (base : Nat) : Nat → List Char → Option Nat
  | n, [] => some n
  | n, c :: rest =>
    if c = '_' then readDigits? base n rest
    else if isHexDigit c && digitValue c < base then
      readDigits? base (base * n + digitValue c) rest
    else none

/-- Digits of a base, of which the first may not be an underscore. -/
def readRun? (base : Nat) : List Char → Option Nat
  | [] => none
  | c :: rest => if c = '_' then none else readDigits? base 0 (c :: rest)

/-- An unsigned whole number. -/
def readMagnitude? : List Char → Option Nat
  | '0' :: 'b' :: digits => readRun? 2 digits
  | '0' :: 'o' :: digits => readRun? 8 digits
  | '0' :: 'x' :: digits => readRun? 16 digits
  | digits => readRun? 10 digits

/-- A whole number, which may end in the given type name. -/
def readInteger? (typeName : List Char) (token : List Char) : Option Int :=
  let (negative, body) := splitSign token
  let run := body.takeWhile fun c => isHexDigit c || c == '_'
  let digits := if body.drop run.length = typeName then run else body
  (readMagnitude? digits).map fun n => if negative then -(n : Int) else n

/-- A whole number from `least` up to `greatest`. -/
def readIntegerIn? (typeName : List Char) (least greatest : Int) (token : List Char) :
    Option Int :=
  (readInteger? typeName token).filter fun n => least ≤ n && n ≤ greatest

/-- A whole number of 64 bits without sign. -/
def readNatural? (token : List Char) : Option Nat :=
  (readIntegerIn? ['u', '6', '4'] 0 0xffffffffffffffff token).map Int.toNat

/-- A whole number of 32 bits with sign. -/
def readInt32? (token : List Char) : Option Int32 :=
  (readIntegerIn? ['i', '3', '2'] (-0x80000000) 0x7fffffff token).map Int32.ofInt

/-- A decimal as it is written. -/
inductive DecimalForm where
  | infinity
  | notANumber
  | finite (d : Decimal)

/-- Take the underscores out of a decimal.  They may not stand before the first digit,
directly behind the point, or behind its sign. -/
def dropUnderscores? : Bool → List Char → Option (List Char)
  | _, [] => some []
  | allowed, c :: rest =>
    if c = '_' then
      if allowed then dropUnderscores? true rest else none
    else
      let allowed :=
        if isDecimalDigit c || c == 'e' || c == 'E' then true
        else if c = '.' then false
        else allowed
      (dropUnderscores? allowed rest).map (c :: ·)

/-- The number that decimal digits stand for. -/
def digitsValue (digits : List Char) : Nat :=
  digits.foldl (fun n c => 10 * n + digitValue c) 0

/-- The exponent at the end of a decimal, with its mark. -/
def readExponent? : List Char → Option Int
  | [] => some 0
  | mark :: rest =>
    if mark = 'e' || mark = 'E' then
      let (negative, digits) := splitSign rest
      if digits.isEmpty || !digits.all isDecimalDigit then none
      else
        let n := digitsValue digits
        some (if negative then -(n : Int) else n)
    else none

/-- An unsigned decimal: digits before or behind an optional point, and an exponent. -/
def readDecimal? (body : List Char) : Option Decimal :=
  let whole := body.takeWhile isDecimalDigit
  let (fraction, rest) :=
    match body.drop whole.length with
    | '.' :: rest => rest.span isDecimalDigit
    | rest => ([], rest)
  if whole.isEmpty && fraction.isEmpty then none
  else
    (readExponent? rest).map fun exponent =>
      ⟨digitsValue (whole ++ fraction), exponent - fraction.length⟩

def isDecimalChar (c : Char) : Bool :=
  isDecimalDigit c || c == 'e' || c == 'E' || c == '.' || c == '+' || c == '-' || c == '_'

/-- A number token as a decimal: whether it has a minus, its form, and the type name
at its end. -/
def readForm? (token : List Char) : Option (Bool × DecimalForm × List Char) :=
  let (negative, body) := splitSign token
  match body with
  | 'i' :: 'n' :: 'f' :: typeName => some (negative, .infinity, typeName)
  | 'N' :: 'a' :: 'N' :: typeName => some (negative, .notANumber, typeName)
  | _ => do
    let run := token.takeWhile isDecimalChar
    let cleaned ← dropUnderscores? false run
    let d ← readDecimal? (splitSign cleaned).2
    return (negative, .finite d, token.drop run.length)

/-- A single-precision number. -/
def readBinary32? (token : List Char) : Option Binary32 := do
  let (negative, form, typeName) ← readForm? token
  if typeName.isEmpty || typeName = ['f', '3', '2'] then
    return match form with
      | .infinity => .ofMagnitude negative Binary32.infinity
      | .notANumber => .ofMagnitude negative Binary32.quietNaN
      | .finite d => .ofDecimal negative d
  else none

/-- The types of whole numbers with their ranges. -/
def integerTypes : List (List Char × Int × Int) :=
  [(['i', '8'], -0x80, 0x7f), (['i', '1', '6'], -0x8000, 0x7fff),
   (['i', '3', '2'], -0x80000000, 0x7fffffff),
   (['i', '6', '4'], -0x8000000000000000, 0x7fffffffffffffff),
   (['u', '8'], 0, 0xff), (['u', '1', '6'], 0, 0xffff),
   (['u', '3', '2'], 0, 0xffffffff), (['u', '6', '4'], 0, 0xffffffffffffffff)]

/-- Whether a token is a number at all. -/
def isNumber (token : List Char) : Bool :=
  (readIntegerIn? [] (-0x8000000000000000) 0xffffffffffffffff token).isSome
    || integerTypes.any (fun (name, least, greatest) =>
      name.isSuffixOf token && (readIntegerIn? name least greatest token).isSome)
    || match readForm? token with
      | some (_, _, typeName) =>
        typeName.isEmpty || typeName = ['f', '3', '2'] || typeName = ['f', '6', '4']
      | none => false

end FlowGraph.Document
