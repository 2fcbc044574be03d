/-!
# Places in a YAML text

A `Cursor` is the rest of a text with the number of characters, the line and the column before it.
Lines end at a carriage return, a newline, both together, a next-line character, or a line or
paragraph separator.
-/

namespace TraceGen.Yaml

/-- Line breaks. -/
def isBreak (c : Char) : Bool :=
  c == '\r' || c == '\n' || c == '\u0085' || c == '\u2028' || c == '\u2029'

/-- Spaces and tabs. -/
def isBlank (c : Char) : Bool :=
  c == ' ' || c == '\t'

/-- Spaces, tabs and line breaks. -/
def isGap (c : Char) : Bool :=
  isBlank c || isBreak c

/-- The characters of anchors, of tag handles and of the names of directives. -/
def isWordChar (c : Char) : Bool :=
  c.isAlphanum || c == '_' || c == '-'

/-- The characters that a YAML text may hold. -/
def isAllowed (c : Char) : Bool :=
  let n := c.toNat
  n == 9 || n == 10 || n == 13 || (0x20 ≤ n && n ≤ 0x7E) || n == 0x85 ||
    (0xA0 ≤ n && n ≤ 0xFFFD) || 0x10000 ≤ n

/-- The rest of a text and where it begins. -/
structure Cursor where
  /-- What is still to be read. -/
  rest : List Char
  /-- The number of characters before. -/
  index : Nat
  /-- The number of lines before. -/
  line : Nat
  /-- The number of characters before on the same line. -/
  column : Nat
deriving Repr

namespace Cursor

/-- The beginning of a text. -/
def start (text : List Char) : Cursor :=
  ⟨text, 0, 0, 0⟩

/-- The character `n` places ahead; none behind the end. -/
def peek (c : Cursor) (n : Nat) : Option Char :=
  (c.rest.drop n).head?

/-- Whether the character `n` places ahead is `x`. -/
def sees (c : Cursor) (x : Char) (n : Nat) : Bool :=
  c.peek n == some x

/-- Whether the text ends, or a blank or a line break stands, `n` places ahead. -/
def gapAt (c : Cursor) (n : Nat) : Bool :=
  (c.peek n).all isGap

/-- Whether the text or the line ends here. -/
def atLineEnd (c : Cursor) : Bool :=
  (c.peek 0).all isBreak

/-- Passes over `n` characters of the line. -/
def skip (c : Cursor) (n : Nat) : Cursor :=
  ⟨c.rest.drop n, c.index + n, c.line, c.column + n⟩

/-- Takes the characters of the line that satisfy `p`. -/
def takeWhile (p : Char → Bool) (c : Cursor) : List Char × Cursor :=
  let taken := c.rest.takeWhile p
  (taken, ⟨c.rest.dropWhile p, c.index + taken.length, c.line, c.column + taken.length⟩)

/-- Passes over the characters of the line that satisfy `p`. -/
def skipWhile (p : Char → Bool) (c : Cursor) : Cursor :=
  (c.takeWhile p).2

/-- Takes a line break, if one stands here, as the text that it means: a separator means itself and
the others a newline. -/
def takeBreak (c : Cursor) : List Char × Cursor :=
  match c.rest with
  | '\r' :: '\n' :: rest => (['\n'], ⟨rest, c.index + 2, c.line + 1, 0⟩)
  | x :: rest =>
    if isBreak x then
      (if x = '\u2028' ∨ x = '\u2029' then [x] else ['\n'], ⟨rest, c.index + 1, c.line + 1, 0⟩)
    else ([], c)
  | [] => ([], c)

/-- Passes over blanks and a comment. -/
def skipComment (c : Cursor) : Cursor :=
  let c := c.skipWhile isBlank
  if c.sees '#' 0 then c.skipWhile (!isBreak ·) else c

/-- Whether a marker between documents stands here, `x` three times at the start of a line. -/
def marker (c : Cursor) (x : Char) : Bool :=
  c.column == 0 && c.sees x 0 && c.sees x 1 && c.sees x 2 && c.gapAt 3

/-- Whether either marker between documents stands here. -/
def atMarker (c : Cursor) : Bool :=
  c.marker '-' || c.marker '.'

end Cursor

end TraceGen.Yaml
