/-!
# Connection ids

A connection id is a 128-bit number.  It is written in lower-case hexadecimal
with hyphens after the eighth, twelfth, sixteenth and twentieth digit, and read
back from that form, from the bare 32 digits, from the hyphenated form in
braces, and from the hyphenated form behind `urn:uuid:`, all in either letter
case.
-/

namespace FlowGraph

/-- The identity of a connection. -/
structure ConnectionId where
  number : BitVec 128
  deriving DecidableEq, Repr, Inhabited

namespace ConnectionId

/-- The hexadecimal digit with the given value. -/
def hexDigit (n : Nat) : Char := Nat.digitChar (n % 16)

/-- The last `count` hexadecimal digits of a number. -/
def hexTail : Nat → Nat → List Char
  | 0, _ => []
  | count + 1, n => hexTail count (n / 16) ++ [hexDigit n]

/-- The sizes of the groups between hyphens. -/
def groups : List Nat := [8, 4, 4, 4, 12]

/-- Put a hyphen between the groups. -/
def hyphenate : List Nat → List Char → List Char
  | [], digits => digits
  | [size], digits => digits.take size
  | size :: sizes, digits => digits.take size ++ '-' :: hyphenate sizes (digits.drop size)

/-- Take the hyphens between the groups out again. -/
def unhyphenate? : List Nat → List Char → Option (List Char)
  | [], [] => some []
  | [], _ :: _ => none
  | [size], text => if text.length = size then some text else none
  | size :: sizes, text =>
    match text.drop size with
    | '-' :: rest => (unhyphenate? sizes rest).map (text.take size ++ ·)
    | _ => none

/-- The value of a hexadecimal digit in either case. -/
def hexValue? (c : Char) : Option Nat :=
  if '0' ≤ c ∧ c ≤ '9' then some (c.toNat - '0'.toNat)
  else if 'a' ≤ c ∧ c ≤ 'f' then some (c.toNat - 'a'.toNat + 10)
  else if 'A' ≤ c ∧ c ≤ 'F' then some (c.toNat - 'A'.toNat + 10)
  else none

/-- The number that hexadecimal digits stand for, after a number already read. -/
def readHex? : Nat → List Char → Option Nat
  | n, [] => some n
  | n, c :: rest =>
    match hexValue? c with
    | some digit => readHex? (16 * n + digit) rest
    | none => none

/-- The characters of an id. -/
def write (id : ConnectionId) : List Char :=
  hyphenate groups (hexTail 32 id.number.toNat)

/-- The 32 digits of a written id. -/
def digits? (text : List Char) : Option (List Char) :=
  if text.length = 32 then some text
  else if text.length = 36 then unhyphenate? groups text
  else if text.length = 38 then
    if text.head? = some '{' ∧ text.getLast? = some '}' then
      unhyphenate? groups (text.drop 1).dropLast
    else none
  else if text.length = 45 then
    if (text.take 9).map Char.toLower = "urn:uuid:".toList then
      unhyphenate? groups (text.drop 9)
    else none
  else none

/-- Read a written id. -/
def read? (text : List Char) : Option ConnectionId :=
  ((digits? text).bind (readHex? 0)).map fun n => ⟨BitVec.ofNat 128 n⟩

/-- The written id. -/
def text (id : ConnectionId) : String := String.ofList id.write

/-- The text of an id in messages. -/
def label (id : ConnectionId) : String := "ConnectionId(" ++ id.text ++ ")"

end ConnectionId

end FlowGraph
