import TraceGen.Unicode.Property

/-!
# Quoted texts

`quoted` writes a text between double quotes so that every character of it can be seen: a quote or
backslash follows a backslash, tab, carriage return, newline and NUL have letters of their own, and
other characters without a shape are written by their number in hexadecimal. `quotedList` writes a
list of texts.
-/

namespace TraceGen.Text

/-- The hexadecimal digits of a natural, in lower case. -/
def hexDigits (n : Nat) : List Char :=
  Nat.toDigits 16 n

/-- A character inside quotes. -/
def quoteChar (c : Char) : List Char :=
  if c = '\x00' then ['\\', '0']
  else if c = '\t' then ['\\', 't']
  else if c = '\r' then ['\\', 'r']
  else if c = '\n' then ['\\', 'n']
  else if c = '"' then ['\\', '"']
  else if c = '\\' then ['\\', '\\']
  else if Unicode.isPrintable c && !Unicode.Property.graphemeExtend.holds c then [c]
  else '\\' :: 'u' :: '\x7b' :: hexDigits c.toNat ++ ['\x7d']

/-- A text between quotes. -/
def quoted (s : String) : String :=
  String.ofList ('"' :: s.toList.flatMap quoteChar ++ ['"'])

/-- A list of quoted texts between brackets. -/
def quotedList (ss : List String) : String :=
  "[" ++ String.intercalate ", " (ss.map quoted) ++ "]"

end TraceGen.Text
