import RecordBridge.Text.Visible

/-!
# Quoted texts

A text in double quotes as messages show it: quotes, backslashes and characters without a visible
form of their own are escaped.
-/

namespace RecordBridge.Text

/-- A number in lowercase hexadecimal digits. -/
def hex (n : Nat) : List Char :=
  Nat.toDigits 16 n

/-- One character of a quoted text. -/
def escapeChar (c : Char) : List Char :=
  if c = '\n' then ['\\', 'n']
  else if c = '\t' then ['\\', 't']
  else if c = '\r' then ['\\', 'r']
  else if c = '\x00' then ['\\', '0']
  else if c = '\"' then ['\\', '\"']
  else if c = '\\' then ['\\', '\\']
  else if isVisible c then [c]
  else ['\\', 'u', '\x7b'] ++ hex c.toNat ++ ['\x7d']

/-- A text between double quotes. -/
def quoted (s : String) : String :=
  String.ofList (['\"'] ++ s.toList.flatMap escapeChar ++ ['\"'])

end RecordBridge.Text
