import TraceGen.Json.Document
import TraceGen.Decimal.Layout
import TraceGen.KeyMap
import TraceGen.Text.Hex

/-!
# JSON values

A value is what a document means: a number is an integer of 64 bits or a floating-point number, a
string is a text, and an object has its fields in order of the name, the last of several members
with one name counting. `Numeral.toFloat` rounds more than once, so that a number may be next to the
nearest one. `Value.ofDocument?` fails for numbers beyond the floating-point range, unpaired
surrogates and too deep nesting. `Value.write` writes a value without blanks.
-/

namespace TraceGen.Json

/-- A number: whole numbers of 64 bits are kept exact. -/
inductive Number where
  | natural (n : Nat)
  | negative (n : Nat)
  | float (x : Float)
deriving Repr

/-- A value. The fields of an object are in strictly increasing order. -/
inductive Value where
  | null
  | bool (b : Bool)
  | number (n : Number)
  | string (s : String)
  | array (items : List Value)
  | object (fields : List (String × Value))
deriving Repr

/-- Puts digits behind a significand as long as it fits into 64 bits: the significand, and the
digits that are left. -/
def takeSignificand (s : Nat) : List Char → Nat × List Char
  | [] => (s, [])
  | c :: cs =>
    let next := 10 * s + Text.digitValue c
    if next < UInt64.size then takeSignificand next cs else (s, c :: cs)

/-- The significand of a numeral and its power of ten. Digits that do not fit are dropped; those
before the point still count for the power. -/
def Numeral.scientific (n : Numeral) : Nat × Int :=
  let (s, dropped) := takeSignificand 0 n.whole
  let (s, left) := takeSignificand s n.fraction
  (s, n.exponent + dropped.length - (n.fraction.length - left.length : Nat))

/-- The floating-point number that a numeral is read as. The significand is rounded, and then its
product with the power of ten or its quotient, so that this need not be the number nearest to a
numeral of many digits. Division by a power beyond the range of the format takes two steps. -/
def Numeral.toFloat (n : Numeral) : Float :=
  let (s, e) := n.scientific
  let f := Decimal.ofNat s
  let power (k : Int) := Decimal.ofDecimal false 1 k
  let magnitude :=
    if s = 0 then f
    else if 0 ≤ e then f * power e
    else if -308 ≤ e then f / power (-e)
    else f / power 308 / power (-e - 308)
  if n.negative then -magnitude else magnitude

/-- What a numeral means. An integer outside 64 bits and a negative zero are floating-point
numbers; one beyond their range means nothing. -/
def Number.ofNumeral? (n : Numeral) : Option Number :=
  let magnitude := Text.natOfDigits n.whole
  if n.isInteger ∧ n.negative = false ∧ magnitude < UInt64.size then some (.natural magnitude)
  else if n.isInteger ∧ n.negative = true ∧ 0 < magnitude ∧ magnitude ≤ Nat.pow 2 63 then
    some (.negative magnitude)
  else if Decimal.isFinite n.toFloat then some (.float n.toFloat) else none

/-- A number as a floating-point number. -/
def Number.toFloat : Number → Float
  | .natural n => Decimal.ofDecimal false n 0
  | .negative n => Decimal.ofDecimal true n 0
  | .float x => x

/-- The number that a floating-point number is written as; `none` if it is not finite. -/
def Number.ofFloat? (x : Float) : Option Number :=
  if Decimal.isFinite x then some (.float x) else none

/-- The text of code points, if none of them is a surrogate. -/
def textOfPoints? (points : List Nat) : Option String :=
  if points.all (fun n => n < 0xD800 || 0xE000 ≤ n) then
    some (String.ofList (points.map Char.ofNat))
  else none

namespace Value

mutual

/-- What a document means, when arrays and objects nest at most `depth` deep. -/
def ofDocument? (depth : Nat) : Document → Option Value
  | .null => some .null
  | .bool b => some (.bool b)
  | .number n => (Number.ofNumeral? n).map .number
  | .string points => (textOfPoints? points).map .string
  | .array items =>
    if depth = 0 then none else (ofItems? (depth - 1) items).map .array
  | .object members =>
    if depth = 0 then none else (ofMembers? (depth - 1) [] members).map .object

/-- What the items of an array mean. -/
def ofItems? (depth : Nat) : List Document → Option (List Value)
  | [] => some []
  | d :: ds => do
    let v ← ofDocument? depth d
    let vs ← ofItems? depth ds
    return v :: vs

/-- What the members of an object mean, after the fields already there. -/
def ofMembers? (depth : Nat) (fields : List (String × Value)) :
    List (List Nat × Document) → Option (List (String × Value))
  | [] => some fields
  | (points, d) :: members => do
    let name ← textOfPoints? points
    let v ← ofDocument? depth d
    ofMembers? depth (Entries.put name v fields) members

end

/-- How deep arrays and objects may nest. -/
def maxDepth : Nat := 127

/-- Whether a value is an object. -/
def isObject : Value → Bool
  | .object _ => true
  | _ => false

/-- Sets a field of an object; other values are left alone. -/
def setField (value : Value) (name : String) (v : Value) : Value :=
  match value with
  | .object fields => .object (Entries.put name v fields)
  | other => other

/-- A floating-point number as a value: null unless it is finite. -/
def ofFloat (x : Float) : Value :=
  match Number.ofFloat? x with
  | some n => .number n
  | none => .null

/-- Floating-point numbers in JSON: positional from `0.00001` up to below `1e16`, whole numbers
with `.0`, and a sign before every exponent. A tie goes to the even digit. -/
def layout : Decimal.Layout :=
  ⟨.even, some (-5), some 16, true, "+", "null", "null"⟩

/-- A character inside a written string. -/
def escape (c : Char) : List Char :=
  if c = '"' then ['\\', '"']
  else if c = '\\' then ['\\', '\\']
  else if c.toNat < 0x20 then
    match c.toNat with
    | 8 => ['\\', 'b']
    | 9 => ['\\', 't']
    | 10 => ['\\', 'n']
    | 12 => ['\\', 'f']
    | 13 => ['\\', 'r']
    | n => ['\\', 'u', '0', '0', Text.hexDigit (n / 16), Text.hexDigit (n % 16)]
  else [c]

/-- A written string. -/
def writeString (s : String) : String :=
  String.ofList ('"' :: s.toList.flatMap escape ++ ['"'])

/-- A written number. -/
def writeNumber : Number → String
  | .natural n => toString n
  | .negative n => "-" ++ toString n
  | .float x => layout.write x

mutual

/-- Writes a value without blanks. -/
def write : Value → String
  | .null => "null"
  | .bool b => if b then "true" else "false"
  | .number n => writeNumber n
  | .string s => writeString s
  | .array items => "[" ++ String.intercalate "," (writeItems items) ++ "]"
  | .object fields => "\x7b" ++ String.intercalate "," (writeFields fields) ++ "\x7d"

/-- Writes the items of an array. -/
def writeItems : List Value → List String
  | [] => []
  | v :: vs => write v :: writeItems vs

/-- Writes the fields of an object. -/
def writeFields : List (String × Value) → List String
  | [] => []
  | (name, v) :: fields => (writeString name ++ ":" ++ write v) :: writeFields fields

end

end Value

end TraceGen.Json
