import TraceGen.Decimal.Binary64
import TraceGen.Text.Digits

/-!
# Reading numbers

`parse?` reads a number from its decimal text: a sign, digits with a point among them or at either
end, and an exponent. Infinity and NaN are read from their names in any case. The number is the one
nearest to what the digits say.
-/

namespace TraceGen.Decimal

/-- Reads a sign off the front: whether it is a minus, and the rest. -/
def takeSign : List Char → Bool × List Char
  | '-' :: cs => (true, cs)
  | '+' :: cs => (false, cs)
  | cs => (false, cs)

/-- Reads an exponent that is the whole text; no text at all is the exponent zero. -/
def exponent? : List Char → Option Int
  | [] => some 0
  | e :: cs =>
    if e = 'e' ∨ e = 'E' then
      let (negative, ds) := takeSign cs
      if ds ≠ [] ∧ ds.all Char.isDigit then
        let n : Int := Text.natOfDigits ds
        some (if negative then -n else n)
      else none
    else none

/-- Reads an unsigned number that is the whole text. -/
def magnitude? (negative : Bool) (cs : List Char) : Option Float :=
  let (whole, rest) := cs.span Char.isDigit
  let (fraction, rest) := match rest with
    | '.' :: rest => rest.span Char.isDigit
    | rest => ([], rest)
  if whole = [] ∧ fraction = [] then none
  else (exponent? rest).map fun e =>
    ofDecimal negative (Text.natOfDigits (whole ++ fraction)) (e - fraction.length)

/-- Infinity with a sign. -/
def infinity (negative : Bool) : Float :=
  ofBitsSigned negative (2047 * Nat.pow 2 52)

/-- A NaN. -/
def nan : Float :=
  ofBitsSigned false (2047 * Nat.pow 2 52 + Nat.pow 2 51)

/-- Reads a number that is the whole text. -/
def parse? (cs : List Char) : Option Float :=
  let (negative, rest) := takeSign cs
  match String.ofList (rest.map Char.toLower) with
  | "inf" => some (infinity negative)
  | "infinity" => some (infinity negative)
  | "nan" => some nan
  | _ => magnitude? negative rest

end TraceGen.Decimal
