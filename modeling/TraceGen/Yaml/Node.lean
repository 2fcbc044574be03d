import TraceGen.Yaml.Tree
import TraceGen.Decimal.Reader
import TraceGen.Text.Substitute

/-!
# The values of YAML

A `Node` is what a document means: aliases are replaced by what they refer to, and plain scalars are
null, truth values, numbers or texts by their spelling. This module says what scalars mean, and
`Yaml/Document.lean` what whole documents mean. `same_iff` makes equality of values decidable.
-/

namespace TraceGen.Yaml

/-- A number; one that is not whole is known by its bits. -/
inductive Number where
  | natural (n : Nat)
  | negative (n : Nat)
  | float (bits : UInt64)
deriving DecidableEq, Repr

/-- A value. The entries of a mapping are in the order in which they were made. -/
inductive Node where
  | null
  | bool (b : Bool)
  | number (n : Number)
  | text (s : String)
  | sequence (items : List Node)
  | mapping (entries : List (Node × Node))
  | tagged (tag : String) (node : Node)
deriving Repr

namespace Node

mutual

/-- Whether two values are the same. The order of the entries of mappings counts, and zeros of
different signs are different numbers. An equality that knows neither, as maps that are compared as
sets of entries have it, tells fewer keys apart, but only keys that are mappings or numbers that are
not whole. -/
def same : Node → Node → Bool
  | .null, .null => true
  | .bool a, .bool b => a == b
  | .number a, .number b => a == b
  | .text a, .text b => a == b
  | .sequence a, .sequence b => sameItems a b
  | .mapping a, .mapping b => sameEntries a b
  | .tagged t a, .tagged u b => t == u && same a b
  | _, _ => false

/-- Whether two lists of values are the same. -/
def sameItems : List Node → List Node → Bool
  | [], [] => true
  | a :: as, b :: bs => same a b && sameItems as bs
  | _, _ => false

/-- Whether two lists of entries are the same. -/
def sameEntries : List (Node × Node) → List (Node × Node) → Bool
  | [], [] => true
  | (k, a) :: as, (l, b) :: bs => same k l && same a b && sameEntries as bs
  | _, _ => false

end

mutual

/-- Only equal values are the same. -/
theorem same_iff (a b : Node) : same a b = true ↔ a = b := by
  cases a <;> cases b <;> simp only [same, reduceCtorEq, Bool.false_eq_true, Node.bool.injEq,
    Node.number.injEq, Node.text.injEq, Node.sequence.injEq, Node.mapping.injEq,
    Node.tagged.injEq, beq_iff_eq, Bool.and_eq_true]
  · exact sameItems_iff _ _
  · exact sameEntries_iff _ _
  · rw [same_iff]

/-- Only equal lists of values are the same. -/
theorem sameItems_iff (a b : List Node) : sameItems a b = true ↔ a = b := by
  cases a <;> cases b <;> simp only [sameItems, reduceCtorEq, Bool.false_eq_true, List.cons.injEq,
    Bool.and_eq_true]
  rw [same_iff, sameItems_iff]

/-- Only equal lists of entries are the same. -/
theorem sameEntries_iff (a b : List (Node × Node)) : sameEntries a b = true ↔ a = b := by
  rcases a with _ | ⟨⟨k, a⟩, as⟩ <;> rcases b with _ | ⟨⟨l, b⟩, bs⟩ <;>
    simp only [sameEntries, reduceCtorEq, Bool.false_eq_true, List.cons.injEq, Bool.and_eq_true,
      Prod.mk.injEq]
  rw [same_iff, same_iff, sameEntries_iff]

end

instance : DecidableEq Node := fun a b => decidable_of_iff _ (same_iff a b)

/-- Whether digits begin with a zero that is not alone, so that they are a text. -/
def hasLeadingZero (cs : List Char) : Bool :=
  let ds := match cs with
    | '-' :: ds => ds
    | '+' :: ds => ds
    | ds => ds
  1 < ds.length && ds.head? == some '0' && ds.all Char.isDigit

/-- The natural that digits of a base write. -/
def natOfBase? (base : Nat) (ds : List Char) : Option Nat :=
  if ds = [] then none
  else ds.foldlM (fun n d => do
    let v ← Text.hexValue? d
    if v < base then some (base * n + v) else none) 0

/-- The base that a letter announces. -/
def baseOf? : Char → Option Nat
  | 'x' => some 16
  | 'o' => some 8
  | 'b' => some 2
  | _ => none

/-- The natural that an unsigned numeral writes, in base ten or in a base announced by a letter. -/
def natOfNumeral? (cs : List Char) : Option Nat :=
  match cs with
  | '0' :: b :: ds =>
    match baseOf? b with
    | some base => natOfBase? base ds
    | none => natOfBase? 10 cs
  | _ => natOfBase? 10 cs

/-- What a plain scalar means as a whole number: the inner `none` if it is one of more than 64 but
at most 128 bits, which has no meaning. -/
def wholeNumber? (cs : List Char) : Option (Option Number) :=
  let positive (n : Nat) : Option (Option Number) :=
    if n < UInt64.size then some (some (.natural n))
    else if n < Nat.pow 2 128 then some none
    else none
  let negative (n : Nat) : Option (Option Number) :=
    if n = 0 then some (some (.natural 0))
    else if n ≤ Nat.pow 2 63 then some (some (.negative n))
    else if n ≤ Nat.pow 2 127 then some none
    else none
  if hasLeadingZero cs then none
  else match cs with
    | '-' :: ds => (natOfNumeral? ds).bind negative
    | '+' :: ds => (natOfNumeral? ds).bind positive
    | ds => (natOfNumeral? ds).bind positive

/-- What a plain scalar means as a number that need not be whole. -/
def float? (cs : List Char) : Option Float :=
  let unsigned := match cs with
    | '+' :: ds => ds
    | ds => ds
  if cs.head? = some '+' ∧ (unsigned.head? = some '+' ∨ unsigned.head? = some '-') then none
  else if [".inf", ".Inf", ".INF"].contains (String.ofList unsigned) then
    some (Decimal.infinity false)
  else if ["-.inf", "-.Inf", "-.INF"].contains (String.ofList cs) then some (Decimal.infinity true)
  else if [".nan", ".NaN", ".NAN"].contains (String.ofList cs) then some Decimal.nan
  else (Decimal.parse? unsigned).filter Decimal.isFinite

/-- Whether a plain scalar is a spelling of null. -/
def isNull (s : String) : Bool :=
  ["~", "null", "Null", "NULL"].contains s

/-- The truth value that a plain scalar is a spelling of. -/
def bool? (s : String) : Option Bool :=
  if ["true", "True", "TRUE"].contains s then some true
  else if ["false", "False", "FALSE"].contains s then some false
  else none

/-- A number that need not be whole, as a value. -/
def ofFloat (x : Float) : Node :=
  .number (.float x.toBits)

/-- What a plain scalar without a tag means. -/
def ofPlain? (s : String) : Option Node :=
  if s.isEmpty ∨ isNull s then some .null
  else match bool? s with
    | some b => some (.bool b)
    | none =>
      match wholeNumber? s.toList with
      | some n => n.map .number
      | none =>
        if hasLeadingZero s.toList then some (.text s)
        else match float? s.toList with
          | some x => some (ofFloat x)
          | none => some (.text s)

/-- What a scalar means under a tag of the language itself. -/
def ofStandardTag? (name s : String) : Option Node :=
  match name with
  | "bool" => (bool? s).map .bool
  | "int" => (wholeNumber? s.toList).bind fun n => n.map .number
  | "float" => (float? s.toList).map ofFloat
  | "null" => if isNull s then some .null else none
  | _ => some (.text s)

/-- The name behind the mark of a tag, if the tag is not one of the language itself. -/
def ownTag? (tag : Option String) : Option (List Char) :=
  match tag.map String.toList with
  | some ('!' :: name) => some name
  | _ => none

/-- Puts a tag on a value. A tag without a name is refused. -/
def withTag? (tag : Option String) (n : Node) : Option Node :=
  match ownTag? tag with
  | none => some n
  | some [] => none
  | some name => some (.tagged (String.ofList name) n)

/-- What a scalar means. -/
def ofScalar? (p : Properties) (s : String) (isPlain : Bool) : Option Node :=
  let untagged := if isPlain then ofPlain? s else some (.text s)
  match p.tag with
  | none => untagged
  | some tag =>
    if (ownTag? p.tag).isSome then untagged.bind (withTag? p.tag)
    else if Text.startsWith "tag:yaml.org,2002:" tag then
      ofStandardTag? (String.ofList (tag.toList.drop 18)) s
    else some (.text s)

end Node

end TraceGen.Yaml
