import TraceGen.Yaml.Cursor

/-!
# Gaps inside scalars

A gap is the white space between two words of a plain or quoted scalar. A gap on one line means
itself. A gap over several lines is folded: a single newline becomes a space, and of several line
breaks the first is dropped.
-/

namespace TraceGen.Yaml

/-- The white space between two words. -/
structure Gap where
  /-- The blanks before the first line break. -/
  blanks : List Char
  /-- What the line breaks mean, in order. -/
  breaks : List (List Char)

namespace Gap

/-- No white space. -/
def empty : Gap := ⟨[], []⟩

/-- Whether the gap reaches over a line break. -/
def isFolded (g : Gap) : Bool :=
  !g.breaks.isEmpty

/-- What the gap means. -/
def text (g : Gap) : List Char :=
  match g.breaks with
  | [] => g.blanks
  | [['\n']] => [' ']
  | ['\n'] :: more => more.flatten
  | breaks => breaks.flatten

/-- Takes the white space at a place. In lines after the first a tab before the column `indent` is
refused. -/
def take? (indent : Int) : Nat → Gap → Cursor → Option (Gap × Cursor)
  | 0, _, _ => none
  | fuel + 1, g, c =>
    match c.peek 0 with
    | none => some (g, c)
    | some x =>
      if isBlank x then
        if g.isFolded then
          if (c.column : Int) < indent ∧ x = '\t' then none else take? indent fuel g (c.skip 1)
        else take? indent fuel { g with blanks := g.blanks ++ [x] } (c.skip 1)
      else if isBreak x then
        let (line, c) := c.takeBreak
        take? indent fuel ⟨[], g.breaks ++ [line]⟩ c
      else some (g, c)

end Gap

end TraceGen.Yaml
