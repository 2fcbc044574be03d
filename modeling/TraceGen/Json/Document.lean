import TraceGen.Text.Digits

/-!
# The grammar of JSON texts

`Document.parse?` reads a text that is one JSON document with blanks around it. It checks the
grammar only: a numeral keeps its digits, a string its code units with unpaired surrogates left in
place, and an object its members in order. What a document means is decided by `Json/Value.lean`,
so that a member nobody asks for is read without being understood.
-/

namespace TraceGen.Json

/-- A numeral as written. -/
structure Numeral where
  /-- Whether it starts with a minus sign. -/
  negative : Bool
  /-- The digits before the point. -/
  whole : List Char
  /-- The digits after the point; none if there is no point. -/
  fraction : List Char
  /-- Whether it has a point or an exponent. -/
  isInteger : Bool
  /-- The exponent, zero if there is none. -/
  exponent : Int
deriving Repr

/-- A document. Strings are lists of code points in which surrogates may stand alone. -/
inductive Document where
  | null
  | bool (b : Bool)
  | number (n : Numeral)
  | string (points : List Nat)
  | array (items : List Document)
  | object (members : List (List Nat × Document))
deriving Repr

namespace Document

/-- The blanks between tokens. -/
def isSpace (c : Char) : Bool :=
  c == ' ' || c == '\t' || c == '\n' || c == '\r'

/-- Drops blanks at the front. -/
def skipSpace (cs : List Char) : List Char :=
  cs.dropWhile isSpace

/-- Takes decimal digits off the front. -/
def takeDigits (cs : List Char) : List Char × List Char :=
  cs.span Char.isDigit

/-- Takes an exponent off the front if one starts there: its value and the rest. -/
def takeExponent? (cs : List Char) : Option (Option Int × List Char) :=
  match cs with
  | c :: cs =>
    if c == 'e' || c == 'E' then
      let (negative, cs) := match cs with
        | '-' :: cs => (true, cs)
        | '+' :: cs => (false, cs)
        | cs => (false, cs)
      match takeDigits cs with
      | ([], _) => none
      | (ds, rest) =>
        let n : Int := Text.natOfDigits ds
        some (some (if negative then -n else n), rest)
    else some (none, c :: cs)
  | [] => some (none, [])

/-- Takes a fraction off the front if one starts there. -/
def takeFraction? (cs : List Char) : Option (Option (List Char) × List Char) :=
  match cs with
  | '.' :: cs =>
    match takeDigits cs with
    | ([], _) => none
    | (ds, rest) => some (some ds, rest)
  | cs => some (none, cs)

/-- Takes a numeral off the front. A numeral of several digits does not start with a zero. -/
def takeNumeral? (cs : List Char) : Option (Numeral × List Char) := do
  let (negative, cs) := match cs with
    | '-' :: cs => (true, cs)
    | cs => (false, cs)
  let (whole, cs) := takeDigits cs
  if whole = [] ∨ (whole.head? = some '0' ∧ 1 < whole.length) then none
  else
    let (fraction, cs) ← takeFraction? cs
    let (exponent, cs) ← takeExponent? cs
    some (⟨negative, whole, fraction.getD [], fraction.isNone && exponent.isNone,
      exponent.getD 0⟩, cs)

/-- What a backslash and one character stand for. -/
def shortEscape? (c : Char) : Option Nat :=
  match c with
  | '"' => some 0x22
  | '\\' => some 0x5C
  | '/' => some 0x2F
  | 'b' => some 8
  | 'f' => some 12
  | 'n' => some 10
  | 'r' => some 13
  | 't' => some 9
  | _ => none

/-- Takes the rest of a string after its opening quote, as code units. -/
def takeUnits? : List Char → Option (List Nat × List Char)
  | [] => none
  | '"' :: rest => some ([], rest)
  | '\\' :: 'u' :: a :: b :: c :: d :: rest => do
    let unit ← Text.natOfHex? [a, b, c, d]
    let (units, rest) ← takeUnits? rest
    return (unit :: units, rest)
  | '\\' :: c :: rest => do
    let unit ← shortEscape? c
    let (units, rest) ← takeUnits? rest
    return (unit :: units, rest)
  | c :: rest => do
    if c.toNat < 0x20 ∨ c = '\\' then none
    else
      let (units, rest) ← takeUnits? rest
      return (c.toNat :: units, rest)

/-- Joins each high surrogate with the low one behind it. -/
def joinSurrogates : List Nat → List Nat
  | h :: l :: rest =>
    if 0xD800 ≤ h ∧ h < 0xDC00 ∧ 0xDC00 ≤ l ∧ l < 0xE000 then
      (0x10000 + (h - 0xD800) * 0x400 + (l - 0xDC00)) :: joinSurrogates rest
    else h :: joinSurrogates (l :: rest)
  | us => us

/-- Takes the rest of a string after its opening quote. -/
def takeString? (cs : List Char) : Option (List Nat × List Char) := do
  let (units, rest) ← takeUnits? cs
  return (joinSurrogates units, rest)

/-- Takes the letters of a literal off the front. -/
def takeLiteral? (word : List Char) (d : Document) (cs : List Char) :
    Option (Document × List Char) :=
  if word.isPrefixOf cs then some (d, cs.drop word.length) else none

mutual

/-- Takes a value off the front. Each value inside another costs one unit of fuel. -/
def takeValue? : Nat → List Char → Option (Document × List Char)
  | 0, _ => none
  | fuel + 1, cs =>
    match skipSpace cs with
    | '"' :: rest => do
      let (units, rest) ← takeString? rest
      return (.string units, rest)
    | '[' :: rest =>
      match skipSpace rest with
      | ']' :: rest => some (.array [], rest)
      | rest => do
        let (items, rest) ← takeItems? fuel rest
        return (.array items, rest)
    | '\x7b' :: rest =>
      match skipSpace rest with
      | '\x7d' :: rest => some (.object [], rest)
      | rest => do
        let (members, rest) ← takeMembers? fuel rest
        return (.object members, rest)
    | 'n' :: rest => takeLiteral? ['u', 'l', 'l'] .null rest
    | 't' :: rest => takeLiteral? ['r', 'u', 'e'] (.bool true) rest
    | 'f' :: rest => takeLiteral? ['a', 'l', 's', 'e'] (.bool false) rest
    | rest => do
      let (n, rest) ← takeNumeral? rest
      return (.number n, rest)

/-- Takes the items of an array up to its closing bracket. -/
def takeItems? : Nat → List Char → Option (List Document × List Char)
  | 0, _ => none
  | fuel + 1, cs => do
    let (item, rest) ← takeValue? fuel cs
    match skipSpace rest with
    | ',' :: rest =>
      let (items, rest) ← takeItems? fuel rest
      return (item :: items, rest)
    | ']' :: rest => return ([item], rest)
    | _ => none

/-- Takes the members of an object up to its closing brace. -/
def takeMembers? : Nat → List Char → Option (List (List Nat × Document) × List Char)
  | 0, _ => none
  | fuel + 1, cs =>
    match skipSpace cs with
    | '"' :: rest => do
      let (name, rest) ← takeString? rest
      match skipSpace rest with
      | ':' :: rest =>
        let (value, rest) ← takeValue? fuel rest
        match skipSpace rest with
        | ',' :: rest =>
          let (members, rest) ← takeMembers? fuel rest
          return ((name, value) :: members, rest)
        | '\x7d' :: rest => return ([(name, value)], rest)
        | _ => none
      | _ => none
    | _ => none

end

/-- Reads a text that is one document. Every nested value takes up a character, so the length of
the text is fuel enough. -/
def parse? (text : String) : Option Document :=
  let cs := text.toList
  match takeValue? (cs.length + 1) cs with
  | some (d, rest) => if skipSpace rest = [] then some d else none
  | none => none

end Document

end TraceGen.Json
