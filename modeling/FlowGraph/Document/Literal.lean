import FlowGraph.Connection.Id

/-!
# Literals

A text stands between double quotes, with escapes behind backslashes, or as raw
text between `r"` and `"`, where the quotes may be reinforced by hash signs.  The
escapes are `\'`, `\"`, `\\`, `\n`, `\r`, `\t` and `\0`, a code point as one to six
hexadecimal digits between `\u{` and `}`, and a byte as `\x` and two hexadecimal
digits.  In a text such bytes form UTF-8 sequences, each of which is one
character.  A character stands between single quotes, with the same escapes.  Bytes
are written like texts and characters behind a `b`.
-/

namespace FlowGraph.Document

/-- The character with a code point, if it is one. -/
def charOfCode? (code : Nat) : Option Char :=
  if code.isValidChar then some (Char.ofNat code) else none

def isContinuation (byte : Nat) : Bool := 0x80 ≤ byte && byte < 0xc0

/-- The code point of a UTF-8 sequence, if the bytes are exactly one in its shortest
form. -/
def utf8Code? : List Nat → Option Nat
  | [a] => if a < 0x80 then some a else none
  | [a, b] =>
    if 0xc2 ≤ a && a < 0xe0 && isContinuation b then some ((a - 0xc0) * 64 + (b - 0x80))
    else none
  | [a, b, c] =>
    let code := (a - 0xe0) * 4096 + (b - 0x80) * 64 + (c - 0x80)
    if 0xe0 ≤ a && a < 0xf0 && isContinuation b && isContinuation c && 0x800 ≤ code then
      some code
    else none
  | [a, b, c, d] =>
    let code := (a - 0xf0) * 262144 + (b - 0x80) * 4096 + (c - 0x80) * 64 + (d - 0x80)
    if 0xf0 ≤ a && a < 0xf5 && isContinuation b && isContinuation c && isContinuation d
        && 0x10000 ≤ code then
      some code
    else none
  | _ => none

/-- What a simple escape stands for. -/
def simpleEscape? (c : Char) : Option Char :=
  if c = '\'' || c = '"' || c = '\\' then some c
  else if c = 'n' then some '\n'
  else if c = 'r' then some '\r'
  else if c = 't' then some '\t'
  else if c = '0' then some '\x00'
  else none

/-- Where a reader stands inside a quoted text. -/
inductive TextState where
  | plain
  /-- Behind a backslash. -/
  | escape
  /-- Among the digits of an escaped byte, of which the first may have been read.
  The bytes before it do not form a character yet. -/
  | byte (before : List Nat) (high : Option Nat)
  /-- Before the backslash of another escaped byte. -/
  | nextByte (before : List Nat)
  /-- Before the `x` of another escaped byte. -/
  | nextMark (before : List Nat)
  /-- Before the brace of an escaped code point. -/
  | openCode
  /-- Among the digits of an escaped code point. -/
  | code (count value : Nat)

/-- Read a quoted text up to its closing quote: the characters, and what follows
the quote.  With `binary` an escaped byte stands for itself. -/
def readText (binary : Bool) (acc : List Char) :
    TextState → List Char → Option (List Char × List Char)
  | _, [] => none
  | .plain, c :: rest =>
    if c = '"' then some (acc.reverse, rest)
    else if c = '\\' then readText binary acc .escape rest
    else readText binary (c :: acc) .plain rest
  | .escape, c :: rest =>
    if c = 'x' then readText binary acc (.byte [] none) rest
    else if c = 'u' then readText binary acc .openCode rest
    else
      match simpleEscape? c with
      | some e => readText binary (e :: acc) .plain rest
      | none => none
  | .byte before none, c :: rest =>
    match ConnectionId.hexValue? c with
    | some high => readText binary acc (.byte before (some high)) rest
    | none => none
  | .byte before (some high), c :: rest =>
    match ConnectionId.hexValue? c with
    | none => none
    | some low =>
      let bytes := before ++ [16 * high + low]
      if binary then readText binary (Char.ofNat (16 * high + low) :: acc) .plain rest
      else
        match (utf8Code? bytes).bind charOfCode? with
        | some e => readText binary (e :: acc) .plain rest
        | none => if bytes.length < 4 then readText binary acc (.nextByte bytes) rest else none
  | .nextByte before, c :: rest =>
    if c = '\\' then readText binary acc (.nextMark before) rest else none
  | .nextMark before, c :: rest =>
    if c = 'x' then readText binary acc (.byte before none) rest else none
  | .openCode, c :: rest =>
    if c = '{' then readText binary acc (.code 0 0) rest else none
  | .code count value, c :: rest =>
    if c = '}' && count != 0 then
      match charOfCode? value with
      | some e => readText binary (e :: acc) .plain rest
      | none => none
    else if count < 6 then
      match ConnectionId.hexValue? c with
      | some digit => readText binary acc (.code (count + 1) (16 * value + digit)) rest
      | none => none
    else none

/-- Read raw text up to a quote with the given number of hash signs behind it. -/
def readRawText (hashes : Nat) (acc : List Char) : List Char → Option (List Char × List Char)
  | [] => none
  | c :: rest =>
    if c = '"' && (List.replicate hashes '#').isPrefixOf rest then
      some (acc.reverse, rest.drop hashes)
    else readRawText hashes (c :: acc) rest

/-- Read raw text from behind the `r`. -/
def readRaw (text : List Char) : Option (List Char × List Char) :=
  let hashes := (text.takeWhile (· = '#')).length
  match text.drop hashes with
  | '"' :: rest => readRawText hashes [] rest
  | _ => none

/-- Read a text literal. -/
def readString : List Char → Option (List Char × List Char)
  | '"' :: rest => readText false [] .plain rest
  | 'r' :: rest => readRaw rest
  | _ => none

/-- Read a literal of bytes: a text behind `b`. -/
def readBytes : List Char → Option (List Char × List Char)
  | 'b' :: '"' :: rest => readText true [] .plain rest
  | 'b' :: 'r' :: rest => readRaw rest
  | _ => none

/-- What follows one character or escape and the single quote behind it.  With
`binary` it stands for a byte. -/
def skipSingle (binary : Bool) : List Char → Option (List Char)
  | '\\' :: '\'' :: '\'' :: rest => some rest
  | '\\' :: rest =>
    let body := rest.takeWhile (· != '\'')
    let single := !(body.drop 1).contains '\\' && !(binary && body.head? == some 'u')
    match rest.drop body.length, readText binary [] .escape (body ++ ['"']) with
    | _ :: after, some ([_], []) => if single then some after else none
    | _, _ => none
  | c :: '\'' :: rest => if binary && 0x80 ≤ c.toNat then none else some rest
  | _ => none

/-- What follows a character literal. -/
def skipCharacter : List Char → Option (List Char)
  | '\'' :: rest => skipSingle false rest
  | _ => none

/-- What follows a byte literal: a character behind `b`. -/
def skipByte : List Char → Option (List Char)
  | 'b' :: '\'' :: rest => skipSingle true rest
  | _ => none

end FlowGraph.Document
