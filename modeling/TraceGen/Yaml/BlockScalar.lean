import TraceGen.Yaml.Cursor

/-!
# Block scalars

A block scalar is a run of indented lines under a header. A literal one keeps its line breaks; in a
folded one a break between two lines that do not begin with a blank becomes a space, and of several
breaks the first is dropped. The header says what happens to the breaks at the end and may give the
indentation, which otherwise is that of the first line that is not empty.
-/

namespace TraceGen.Yaml

namespace BlockScalar

/-- What happens to the line breaks at the end. -/
inductive Chomp where
  | strip
  | clip
  | keep
deriving DecidableEq

/-- Takes the sign that says what happens to the line breaks at the end. -/
def takeChomp (c : Cursor) : Chomp × Cursor :=
  if c.sees '+' 0 then (.keep, c.skip 1)
  else if c.sees '-' 0 then (.strip, c.skip 1)
  else (.clip, c)

/-- Takes the digit that gives the indentation; a zero is refused. -/
def takeIndent? (c : Cursor) : Option (Nat × Cursor) :=
  match c.peek 0 with
  | some x =>
    if x = '0' then none
    else if x.isDigit then some (x.toNat - 48, c.skip 1)
    else some (0, c)
  | none => some (0, c)

/-- Takes the sign and the digit in either order, and the rest of the header's line. -/
def takeHeader? (c : Cursor) : Option (Chomp × Nat × Cursor) := do
  let (chomp, after) := takeChomp c
  let (indent, after) ← takeIndent? after
  let (chomp, after) := if chomp = .clip ∧ indent ≠ 0 then takeChomp after else (chomp, after)
  let after := after.skipComment
  if after.atLineEnd then some (chomp, indent, after.takeBreak.2) else none

/-- Takes the empty lines at a place and the indentation of the next line: what the breaks mean, the
greatest column reached, and the place. While the indentation is not known it is zero. A tab in
place of indentation is refused. -/
def takeBreaks? (indent : Nat) : Nat → List Char → Nat → Cursor → Option (List Char × Nat × Cursor)
  | 0, _, _, _ => none
  | fuel + 1, breaks, widest, c =>
    let spaces := (c.rest.takeWhile (· == ' ')).length
    let c := c.skip (if indent = 0 then spaces else min spaces (indent - c.column))
    let widest := max widest c.column
    if (indent = 0 ∨ c.column < indent) ∧ c.sees '\t' 0 then none
    else if (c.peek 0).any isBreak then
      let (line, c) := c.takeBreak
      takeBreaks? indent fuel (breaks ++ line) widest c
    else some (breaks, widest, c)

/-- What the lines of a block scalar have come to. -/
structure Lines where
  /-- The text so far. -/
  text : List Char
  /-- What the break behind the last line means. -/
  lastBreak : List Char
  /-- What the breaks of the empty lines behind it mean. -/
  breaks : List Char
  /-- Whether the last line began with a blank. -/
  wasBlank : Bool

/-- Takes the lines at the column `indent`. -/
def takeLines? (isLiteral : Bool) (indent : Nat) : Nat → Lines → Cursor → Option (Lines × Cursor)
  | 0, _, _ => none
  | fuel + 1, s, c =>
    if c.column = indent ∧ c.rest ≠ [] then do
      let isBlankLine := (c.peek 0).any isBlank
      let joint :=
        if isLiteral = false ∧ s.lastBreak = ['\n'] ∧ s.wasBlank = false ∧ isBlankLine = false then
          if s.breaks = [] then [' '] else []
        else s.lastBreak
      let (line, c) := c.takeWhile (!isBreak ·)
      let (lastBreak, c) := c.takeBreak
      let (breaks, _, c) ← takeBreaks? indent (c.rest.length + 1) [] 0 c
      takeLines? isLiteral indent fuel
        ⟨s.text ++ joint ++ s.breaks ++ line, lastBreak, breaks, isBlankLine⟩ c
    else some (s, c)

/-- Takes a block scalar after its indicator, in a collection at the column `parent`. -/
def take? (isLiteral : Bool) (parent : Int) (c : Cursor) : Option (List Char × Cursor) := do
  let (chomp, given, c) ← takeHeader? c
  let known := if given = 0 then 0 else (max parent 0).toNat + given
  let (breaks, widest, c) ← takeBreaks? known (c.rest.length + 1) [] 0 c
  let indent := if known = 0 then max (max widest (parent + 1).toNat) 1 else known
  let (s, c) ← takeLines? isLiteral indent (c.rest.length + 1) ⟨[], [], breaks, false⟩ c
  let text := s.text ++ (if chomp = .strip then [] else s.lastBreak)
    ++ (if chomp = .keep then s.breaks else [])
  return (text, c)

end BlockScalar

end TraceGen.Yaml
