import TraceGen.Pattern.Reader
import TraceGen.Pattern.Meaning

/-!
# Name filters

A filter selects the modules and the keys of a run by a pattern that must match from the first
character of a name on; the match need not reach the end. The anchor is put before the text of the
pattern, which is wrapped in a group. A pattern whose parentheses close that group and open another
one is read as it then stands. The anchor is asked for by §4.3 of `SPEC_FULL.md`.
-/

namespace TraceGen

/-- A pattern with the expression that it means behind an anchor. -/
structure NameFilter where
  /-- The pattern as given. -/
  pattern : String
  /-- The expression that selects names. -/
  expr : Expr

namespace NameFilter

/-- The text that is read for a pattern. -/
def anchored (pattern : String) : List Char :=
  '^' :: '(' :: '?' :: ':' :: pattern.toList ++ [')']

/-- The filter of a pattern, unless the anchored text is no pattern. -/
def ofPattern? (pattern : String) : Option NameFilter := do
  let p ← Pattern.parse? (anchored pattern)
  let e ← p.expr?
  return ⟨pattern, e⟩

/-- The filter of an optional pattern. No pattern and the empty one select everything, which is no
filter; the outer option is empty for a text that is no pattern. -/
def optional? : Option String → Option (Option NameFilter)
  | none => some none
  | some pattern =>
    if pattern.isEmpty then some none else (ofPattern? pattern).map some

/-- Whether a name is selected. -/
def selects (f : NameFilter) (name : String) : Bool :=
  f.expr.occursIn name.toList

end NameFilter

end TraceGen
