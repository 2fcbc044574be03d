/-!
# White space and lines

The blank characters are those of the Unicode property `White_Space`; core's `Char.isWhitespace`
knows only the ASCII ones. `trim` removes blanks at both ends, and `lines` cuts a text after each
newline, so that a final newline starts no further line.
-/

namespace TraceGen.Text

/-- The characters with the Unicode property `White_Space`. -/
def isBlank (c : Char) : Bool :=
  let n := c.toNat
  (9 ≤ n && n ≤ 13) || n == 0x20 || n == 0x85 || n == 0xA0 || n == 0x1680 ||
    (0x2000 ≤ n && n ≤ 0x200A) || n == 0x2028 || n == 0x2029 || n == 0x202F || n == 0x205F ||
    n == 0x3000

/-- Drops the blanks at the front. -/
def trimFront (cs : List Char) : List Char :=
  cs.dropWhile isBlank

/-- Drops every character that satisfies `p` at the back. -/
def dropBack (p : Char → Bool) (cs : List Char) : List Char :=
  (cs.reverse.dropWhile p).reverse

/-- Drops the blanks at both ends. -/
def trim (cs : List Char) : List Char :=
  dropBack isBlank (trimFront cs)

/-- The lines of a text: the pieces between newlines, without an empty piece after the last one.
A carriage return before a newline stays in its line. -/
def lines (cs : List Char) : List (List Char) :=
  let pieces := cs.splitOn '\n'
  if pieces.getLast? = some [] then pieces.dropLast else pieces

end TraceGen.Text
