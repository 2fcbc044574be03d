import TraceGen.Text.Digits
import TraceGen.Yaml.Gap

/-!
# Quoted scalars

Between single quotes two quotes stand for one. Between double quotes a backslash begins an escape,
and before a line break it joins two lines without a space. White space over several lines is
folded.
-/

namespace TraceGen.Yaml

namespace QuotedScalar

/-- The character that an escape of `digits` hexadecimal digits names. -/
def byNumber? (digits : Nat) (cs : List Char) : Option Char :=
  let ds := cs.take digits
  if ds.length < digits then none else (Text.natOfHex? ds).bind Text.charOfNat?

/-- The character of an escape, and how many characters the escape has after its backslash. -/
def escape? : List Char → Option (Char × Nat)
  | [] => none
  | x :: cs =>
    match x with
    | '0' => some ('\x00', 1)
    | 'a' => some ('\x07', 1)
    | 'b' => some ('\x08', 1)
    | 't' => some ('\t', 1)
    | '\t' => some ('\t', 1)
    | 'n' => some ('\n', 1)
    | 'v' => some ('\x0b', 1)
    | 'f' => some ('\x0c', 1)
    | 'r' => some ('\r', 1)
    | 'e' => some ('\x1b', 1)
    | ' ' => some (' ', 1)
    | '"' => some ('"', 1)
    | '/' => some ('/', 1)
    | '\\' => some ('\\', 1)
    | 'N' => some ('\u0085', 1)
    | '_' => some ('\u00a0', 1)
    | 'L' => some ('\u2028', 1)
    | 'P' => some ('\u2029', 1)
    | 'x' => (byNumber? 2 cs).map (·, 3)
    | 'u' => (byNumber? 4 cs).map (·, 5)
    | 'U' => (byNumber? 8 cs).map (·, 9)
    | _ => none

/-- Takes the rest of a quoted scalar after the text so far, up to its closing quote. A marker
between documents is refused. -/
def take? (isSingle : Bool) : Nat → List Char → Cursor → Option (List Char × Cursor)
  | 0, _, _ => none
  | fuel + 1, text, c =>
    let quote := if isSingle then '\'' else '"'
    let afterGap (g : Gap) (c : Cursor) : Option (List Char × Cursor) := do
      let (g, c) ← Gap.take? 0 (c.rest.length + 1) g c
      if c.atMarker then none else take? isSingle fuel (text ++ g.text) c
    match c.peek 0 with
    | none => none
    | some x =>
      if isGap x then afterGap .empty c
      else if isSingle = true ∧ x = '\'' ∧ c.sees '\'' 1 then
        take? isSingle fuel (text ++ ['\'']) (c.skip 2)
      else if x = quote then some (text, c.skip 1)
      else if isSingle = false ∧ x = '\\' ∧ (c.peek 1).any isBreak then
        afterGap ⟨[], [[]]⟩ (c.skip 1).takeBreak.2
      else if isSingle = false ∧ x = '\\' then do
        let (y, n) ← escape? (c.rest.drop 1)
        take? isSingle fuel (text ++ [y]) (c.skip (n + 1))
      else take? isSingle fuel (text ++ [x]) (c.skip 1)

end QuotedScalar

end TraceGen.Yaml
