import TraceGen.Yaml.Gap

/-!
# Plain scalars

A plain scalar is a run of words without quotes. It ends before a comment, before a colon with white
space behind it, before a marker between documents, where the indentation falls back, and, inside
flow collections, before their punctuation.
-/

namespace TraceGen.Yaml

namespace PlainScalar

/-- The characters that punctuate flow collections. -/
def isFlowMark (x : Char) : Bool :=
  x == ',' || x == '[' || x == ']' || x == '\x7b' || x == '\x7d'

/-- Takes a word. Inside flow collections a colon right before their punctuation is refused. -/
def takeWord? (inFlow : Bool) : List Char → Option (List Char × List Char)
  | [] => some ([], [])
  | x :: rest =>
    if isGap x then some ([], x :: rest)
    else if inFlow = true ∧ x = ':' ∧ rest.head?.any (fun y => isFlowMark y || y == '?') then none
    else if x = ':' ∧ rest.head?.all isGap then some ([], x :: rest)
    else if inFlow = true ∧ isFlowMark x then some ([], x :: rest)
    else (takeWord? inFlow rest).map fun (word, rest) => (x :: word, rest)

/-- Takes a plain scalar: its text, whether white space over several lines stands behind it, and the
place after that white space. Words of lines after the first stand at the column `indent` at least,
unless in a flow collection. -/
def take? (inFlow : Bool) (indent : Int) : Nat → List Char → Gap → Cursor →
    Option (List Char × Bool × Cursor)
  | 0, _, _, _ => none
  | fuel + 1, text, gap, c =>
    if c.atMarker ∨ c.sees '#' 0 then some (text, gap.isFolded, c)
    else do
      let (word, _) ← takeWord? inFlow c.rest
      let c := c.skip word.length
      let (text, gap) := if word = [] then (text, gap) else (text ++ gap.text ++ word, Gap.empty)
      if (c.peek 0).any isGap then
        let (gap, c) ← Gap.take? indent (c.rest.length + 1) gap c
        if inFlow = false ∧ (c.column : Int) < indent then some (text, gap.isFolded, c)
        else take? inFlow indent fuel text gap c
      else some (text, gap.isFolded, c)

end PlainScalar

end TraceGen.Yaml
