import FlowGraph.Text.Combining
import FlowGraph.Text.Visible

/-!
# Quoted text

Text is quoted between double quotes.  A quote, a backslash, the usual controls
and every character that is combining or hidden are escaped; all other
characters stand for themselves.  The single quote is escaped in `document`
quoting only.
-/

namespace FlowGraph.Text

/-- Which single quotes are escaped inside double quotes. -/
inductive Quoting where
  /-- For inspection texts: a single quote stands for itself. -/
  | diagnostic
  /-- For saved text: a single quote is escaped too. -/
  | document
  deriving DecidableEq

/-- The lower-case hexadecimal digits of a number. -/
def hexDigits (n : Nat) : List Char := Nat.toDigits 16 n

/-- A character as it stands inside quotes. -/
def escapeChar (quoting : Quoting) (c : Char) : List Char :=
  if c == '\x00' then ['\\', '0']
  else if c == '\t' then ['\\', 't']
  else if c == '\r' then ['\\', 'r']
  else if c == '\n' then ['\\', 'n']
  else if c == '\\' then ['\\', '\\']
  else if c == '"' then ['\\', '"']
  else if c == '\'' && quoting == .document then ['\\', '\'']
  else if isCombining c || !isVisible c then
    ['\\', 'u', '{'] ++ hexDigits c.toNat ++ ['}']
  else [c]

/-- The characters of a text between quotes. -/
def quoteChars (quoting : Quoting) (s : List Char) : List Char :=
  '"' :: (s.flatMap (escapeChar quoting) ++ ['"'])

/-- A text between quotes. -/
def quote (quoting : Quoting) (s : String) : String :=
  String.ofList (quoteChars quoting s.toList)

end FlowGraph.Text
