/-!
# Binary floating-point numbers of 64 bits

A finite number is a sign and a magnitude `m · 2 ^ q`. `Magnitude.ofBits` reads the magnitude off
the bits and `ofRatio` rounds a quotient of naturals to the nearest magnitude, ties to the even one;
`ofDecimal` reads a decimal numeral through it, so that reading is correctly rounded.
-/

namespace TraceGen.Decimal

/-- A finite magnitude `m · 2 ^ q`. -/
structure Magnitude where
  /-- The integer part, below `2 ^ 53`. -/
  m : Nat
  /-- The exponent, at least `-1074`. -/
  q : Int
deriving DecidableEq, Repr

/-- What the bits of a number say. -/
inductive Shape where
  | nan
  | infinite (negative : Bool)
  | finite (negative : Bool) (magnitude : Magnitude)
deriving DecidableEq, Repr

/-- The magnitude of a finite number with these exponent and fraction fields. -/
def Magnitude.ofFields (exponent fraction : Nat) : Magnitude :=
  if exponent = 0 then ⟨fraction, -1074⟩ else ⟨Nat.pow 2 52 + fraction, (exponent : Int) - 1075⟩

/-- Reads the sign, exponent and fraction fields. -/
def Shape.ofBits (bits : Nat) : Shape :=
  let negative := bits / Nat.pow 2 63 % 2 == 1
  let exponent := bits / Nat.pow 2 52 % Nat.pow 2 11
  let fraction := bits % Nat.pow 2 52
  if exponent = 2047 then
    if fraction = 0 then .infinite negative else .nan
  else .finite negative (Magnitude.ofFields exponent fraction)

/-- What kind of number `x` is. -/
def shape (x : Float) : Shape :=
  Shape.ofBits x.toBits.toNat

/-- Whether `x` is neither infinite nor NaN. -/
def isFinite (x : Float) : Bool :=
  match shape x with
  | .finite _ _ => true
  | _ => false

/-- The natural nearest to `num / den`, and the even one of two. -/
def roundHalfEven (num den : Nat) : Nat :=
  let whole := num / den
  let twice := 2 * (num % den)
  if twice < den then whole
  else if den < twice then whole + 1
  else whole + whole % 2

/-- `num / den` scaled by `2 ^ -q`, rounded to the nearest natural. -/
def roundScaled (num den : Nat) (q : Int) : Nat :=
  if 0 ≤ q then roundHalfEven num (den * Nat.pow 2 q.toNat)
  else roundHalfEven (num * Nat.pow 2 (-q).toNat) den

/-- The bits of the positive number nearest to `num / den`, for positive `num` and `den`. The
exponent is the least one that leaves less than `2 ^ 53` units; rounding up to `2 ^ 53` carries into
the exponent field, and past the greatest number into infinity. -/
def bitsOfRatio (num den : Nat) : Nat :=
  let guess : Int := (num.log2 : Int) - (den.log2 : Int) - 52
  -- The quotient has 53 or 54 bits over the guess's successor; take the coarser unit if it fits.
  let fits (q : Int) : Bool :=
    if 0 ≤ q then num < den * Nat.pow 2 (q.toNat + 53)
    else num * Nat.pow 2 (-q).toNat < den * Nat.pow 2 53
  let exact := if fits (guess - 1) then guess - 1 else if fits guess then guess else guess + 1
  let q := max exact (-1074)
  let units := roundScaled num den q
  if 2047 ≤ q + 1075 then 2047 * Nat.pow 2 52
  else if units < Nat.pow 2 52 then units
  else min ((q + 1074).toNat * Nat.pow 2 52 + units) (2047 * Nat.pow 2 52)

/-- The number with these bits and sign. -/
def ofBitsSigned (negative : Bool) (bits : Nat) : Float :=
  Float.ofBits (UInt64.ofNat (bits + if negative then Nat.pow 2 63 else 0))

/-- The number nearest to `± n · 10 ^ e`. Exponents outside the range of the format are cut off
before a power is computed. -/
def ofDecimal (negative : Bool) (n : Nat) (e : Int) : Float :=
  if n = 0 then ofBitsSigned negative 0
  else
    let top : Int := (n.log2 : Int) / 3 + 1 + e
    if 400 < e then ofBitsSigned negative (2047 * Nat.pow 2 52)
    else if top < -400 then ofBitsSigned negative 0
    else if 0 ≤ e then ofBitsSigned negative (bitsOfRatio (n * Nat.pow 10 e.toNat) 1)
    else ofBitsSigned negative (bitsOfRatio n (Nat.pow 10 (-e).toNat))

/-- The number nearest to a natural. -/
def ofNat (n : Nat) : Float :=
  ofDecimal false n 0

end TraceGen.Decimal
