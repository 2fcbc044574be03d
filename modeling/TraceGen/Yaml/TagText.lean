import TraceGen.Yaml.QuotedScalar
import TraceGen.Text.Utf8

/-!
# The text of tags

A tag is written in angle brackets, or as a handle and a suffix, where a handle is one exclamation
mark, two, or a word between two. The suffix holds the characters of a resource identifier, in which
a percent sign and two digits write a byte.
-/

namespace TraceGen.Yaml

namespace TagText

/-- The characters of a suffix; `inBrackets` admits those that punctuate flow collections. -/
def isUriChar (inBrackets : Bool) (x : Char) : Bool :=
  isWordChar x || ";/?:@&=+$.%!~*'()".toList.contains x || (inBrackets && ",[]".toList.contains x)

/-- The byte that two hexadecimal digits behind a percent sign write. -/
def escapedByte? (cs : List Char) : Option Nat :=
  match cs with
  | '%' :: a :: b :: _ => Text.natOfHex? [a, b]
  | _ => none

/-- The number of bytes of a character by its first byte. -/
def width? (b : Nat) : Option Nat :=
  if b < 0x80 then some 1
  else if b / 0x20 = 6 then some 2
  else if b / 0x10 = 14 then some 3
  else if b / 8 = 30 then some 4
  else none

/-- Takes the bytes of one escaped character: the first says how many there are. -/
def takeEscaped? (cs : List Char) : Option (List Nat × List Char) := do
  let first ← escapedByte? cs
  let width ← width? first
  let later ← (List.range (width - 1)).mapM fun i => do
    let b ← escapedByte? (cs.drop (3 * (i + 1)))
    if b / 0x40 = 2 then some b else none
  return (first :: later, cs.drop (3 * width))

/-- Takes the bytes of a suffix. -/
def takeBytes? (inBrackets : Bool) : Nat → List Char → Option (Bytes × List Char)
  | 0, _ => none
  | _ + 1, [] => some ([], [])
  | fuel + 1, x :: cs =>
    if isUriChar inBrackets x then do
      let (bytes, rest) ← if x = '%' then do
          let (bs, rest) ← takeEscaped? (x :: cs)
          some (bs.map UInt8.ofNat, rest)
        else some (String.utf8EncodeChar x, cs)
      let (more, rest) ← takeBytes? inBrackets fuel rest
      return (bytes ++ more, rest)
    else some ([], x :: cs)

/-- Takes a suffix, which may be empty only if `mayBeEmpty` says so. -/
def takeSuffix? (inBrackets mayBeEmpty : Bool) (c : Cursor) : Option (String × Cursor) := do
  let (bytes, rest) ← takeBytes? inBrackets (c.rest.length + 1) c.rest
  let text ← Text.decode? bytes
  if bytes = [] ∧ mayBeEmpty = false then none
  else some (text, c.skip (c.rest.length - rest.length))

/-- Takes a handle, or as much of one as there is. -/
def takeHandle? (c : Cursor) : Option (List Char × Cursor) :=
  if c.sees '!' 0 then
    let (word, after) := (c.skip 1).takeWhile isWordChar
    if after.sees '!' 0 then some ('!' :: word ++ ['!'], after.skip 1)
    else some ('!' :: word, after)
  else none

/-- Takes a tag: its handle, empty if the suffix is the whole tag, and its suffix. -/
def take? (inFlow : Bool) (c : Cursor) : Option ((String × String) × Cursor) := do
  let (tag, c) ← if c.sees '<' 1 then do
      let (suffix, c) ← takeSuffix? true false (c.skip 2)
      if c.sees '>' 0 then some (("", suffix), c.skip 1) else none
    else do
      let (handle, after) ← takeHandle? c
      if 1 < handle.length ∧ handle.getLast? = some '!' then
        let (suffix, after) ← takeSuffix? false false after
        some ((String.ofList handle, suffix), after)
      else
        let (rest, after) ← takeSuffix? false true after
        let suffix := String.ofList handle.tail ++ rest
        some (if suffix.isEmpty then ("", "!") else ("!", suffix), after)
  if c.gapAt 0 ∨ (inFlow = true ∧ c.sees ',' 0) then some (tag, c) else none

end TagText

end TraceGen.Yaml
