import TraceGen.Decimal.Binary64

/-!
# The fewest digits that read back

For a positive magnitude, the reals that round to it form an interval: it reaches half a unit to
either side, a quarter below a power of two, and holds its ends if the integer part is even. A grid
of `n` digits has a point in the interval only if one of the value's two neighbours on the grid lies
there. `shortest` tries 1, 2, … 17 digits and takes the first grid with a hit; of two hits the
nearer one. Of two equally near ones its caller chooses: the even one or the greater one.
-/

namespace TraceGen.Decimal

/-- A decimal numeral: its value is `digits · 10 ^ exponent`. -/
structure Numeral where
  /-- The digits, read as a natural. -/
  digits : Nat
  /-- The power of ten of the last digit. -/
  exponent : Int
deriving DecidableEq, Repr

/-- An interval of reals around a magnitude, all four in one unit `1 / den`. -/
structure Interval where
  /-- The lower end. -/
  low : Nat
  /-- The magnitude itself. -/
  value : Nat
  /-- The upper end. -/
  high : Nat
  /-- The number of units in one. -/
  den : Nat
  /-- Whether the ends belong to the interval. -/
  closed : Bool

/-- The reals that round to a magnitude. -/
def Interval.ofMagnitude (x : Magnitude) : Interval :=
  let quarter := x.m = Nat.pow 2 52 ∧ -1074 < x.q
  let scale := Nat.pow 2 (x.q - 2).toNat
  ⟨(4 * x.m - if quarter then 1 else 2) * scale, 4 * x.m * scale, (4 * x.m + 2) * scale,
    Nat.pow 2 (2 - x.q).toNat, x.m % 2 == 0⟩

/-- Whether `n · 10 ^ e` lies in the interval. -/
def Interval.holds (i : Interval) (n : Nat) (e : Int) : Bool :=
  let point := n * i.den * Nat.pow 10 e.toNat
  let low := i.low * Nat.pow 10 (-e).toNat
  let high := i.high * Nat.pow 10 (-e).toNat
  if i.closed then low ≤ point && point ≤ high else low < point && point < high

/-- Which of two equally near points is taken. -/
inductive Tie where
  /-- The even one. -/
  | even
  /-- The greater one. -/
  | up
deriving DecidableEq

/-- The natural nearest to `num / den`. -/
def Tie.round (tie : Tie) (num den : Nat) : Nat :=
  match tie with
  | .even => roundHalfEven num den
  | .up => (2 * num + den) / (2 * den)

/-- The point of the grid of step `10 ^ e` that lies in the interval, if one of the value's two
neighbours does. -/
def Interval.onGrid? (tie : Tie) (i : Interval) (e : Int) : Option Nat :=
  let num := i.value * Nat.pow 10 (-e).toNat
  let den := i.den * Nat.pow 10 e.toNat
  let below := num / den
  let nearest := tie.round num den
  if i.holds nearest e then some nearest
  else if i.holds below e then some below
  else if i.holds (below + 1) e then some (below + 1)
  else none

/-- The first grid with a hit among those of step `10 ^ e`, `10 ^ (e - 1)`, … -/
def Interval.search (tie : Tie) (i : Interval) : Nat → Int → Numeral
  | 0, e => ⟨i.value * Nat.pow 10 (-e).toNat / (i.den * Nat.pow 10 e.toNat), e⟩
  | steps + 1, e =>
    match i.onGrid? tie e with
    | some (n + 1) => ⟨n + 1, e⟩
    | _ => i.search tie steps (e - 1)

/-- An upper bound on the number of decimal digits before the point. -/
def Interval.wholeDigits (i : Interval) : Int :=
  ((i.value.log2 : Int) - (i.den.log2 : Int)) * 30103 / 100000 + 2

/-- Moves zeros at the end of the digits into the exponent. -/
def Numeral.dropZeros : Nat → Numeral → Numeral
  | 0, x => x
  | fuel + 1, x =>
    if x.digits % 10 = 0 ∧ x.digits ≠ 0 then
      Numeral.dropZeros fuel ⟨x.digits / 10, x.exponent + 1⟩
    else x

/-- The numeral of fewest digits that rounds to a positive magnitude, nearest to it among those. -/
def shortest (tie : Tie) (x : Magnitude) : Numeral :=
  let i := Interval.ofMagnitude x
  Numeral.dropZeros 20 (i.search tie 20 i.wholeDigits)

end TraceGen.Decimal
