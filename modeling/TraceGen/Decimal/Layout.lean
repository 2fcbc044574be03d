import TraceGen.Decimal.Shortest

/-!
# Layouts of numbers

A `Layout` says how a number is written from its shortest digits: which of two equally near digits
is taken, which decimal exponents are written positionally, whether a whole number keeps `.0`, and
how an exponent and the special values are spelled.
-/

namespace TraceGen.Decimal

/-- The decisions of a written form of numbers. -/
structure Layout where
  /-- Which of two equally near numerals is written. -/
  tie : Tie
  /-- The least exponent of the first digit that is written positionally, if there is a limit. -/
  least : Option Int
  /-- The first exponent of the first digit that is too great for it, if there is a limit. -/
  bound : Option Int
  /-- Whether a whole number written positionally ends in `.0`. -/
  pointZero : Bool
  /-- The sign of an exponent that is not negative. -/
  plus : String
  /-- The text of positive infinity. -/
  infinity : String
  /-- The text of a NaN. -/
  nan : String

/-- Writes digits positionally, with the point after `point` of them. -/
def positional (pointZero : Bool) (digits : List Char) (point : Int) : List Char :=
  if point ≤ 0 then '0' :: '.' :: List.replicate (-point).toNat '0' ++ digits
  else if (digits.length : Int) ≤ point then
    digits ++ List.replicate (point.toNat - digits.length) '0' ++
      (if pointZero then ['.', '0'] else [])
  else digits.take point.toNat ++ '.' :: digits.drop point.toNat

/-- Writes digits with an exponent. -/
def scientific (plus : String) (digits : List Char) (exponent : Int) : List Char :=
  let mantissa := match digits with
    | [] => ['0']
    | [d] => [d]
    | d :: ds => d :: '.' :: ds
  mantissa ++ 'e' :: (if exponent < 0 then ['-'] else plus.toList) ++
    (toString exponent.natAbs).toList

/-- Writes a positive magnitude. -/
def Layout.magnitude (l : Layout) (x : Magnitude) : List Char :=
  let n := shortest l.tie x
  let digits := (toString n.digits).toList
  let first : Int := n.exponent + digits.length - 1
  let small := l.least.any (first < ·)
  let large := l.bound.any (· ≤ first)
  if small || large then scientific l.plus digits first
  else positional l.pointZero digits (first + 1)

/-- Writes a number. -/
def Layout.write (l : Layout) (x : Float) : String :=
  match shape x with
  | .nan => l.nan
  | .infinite negative => (if negative then "-" else "") ++ l.infinity
  | .finite negative v =>
    let text := if v.m = 0 then (if l.pointZero then ['0', '.', '0'] else ['0']) else l.magnitude v
    String.ofList (if negative then '-' :: text else text)

/-- Measurements: positional from `0.0001` up to below `1e16`, whole numbers with `.0`. A tie goes
up. -/
def measured : Layout :=
  ⟨.up, some (-4), some 16, true, "", "inf", "NaN"⟩

/-- Plain numerals: never an exponent, no `.0`. A tie goes up. -/
def plain : Layout :=
  ⟨.up, none, none, false, "", "inf", "NaN"⟩

end TraceGen.Decimal
