import TraceGen.Json.Value

/-!
# Records in JSON

A record with named fields is written as an object, or as an array of the values in the order of the
fields. `Document.record?` gives for each field its document, if it is there: members with other
names are passed over, a field given twice is refused, and so is an array that is too long.
-/

namespace TraceGen.Json

namespace Document

/-- Puts the members of an object at the places of their names in `names`. -/
def placeMembers? (names : List String) :
    List (Option Document) → List (List Nat × Document) → Option (List (Option Document))
  | slots, [] => some slots
  | slots, (points, d) :: members => do
    let name ← textOfPoints? points
    match names.findIdx? (· = name) with
    | none => placeMembers? names slots members
    | some i =>
      match slots[i]? with
      | some (some _) => none
      | _ => placeMembers? names (slots.set i (some d)) members

/-- The documents of the fields `names` of a record. -/
def record? (names : List String) : Document → Option (List (Option Document))
  | .object members => placeMembers? names (names.map fun _ => none) members
  | .array items =>
    if items.length ≤ names.length then
      some (items.map some ++ List.replicate (names.length - items.length) none)
    else none
  | _ => none

/-- The text that a document is. -/
def text? : Document → Option String
  | .string points => textOfPoints? points
  | _ => none

/-- The truth value that a document is. -/
def bool? : Document → Option Bool
  | .bool b => some b
  | _ => none

/-- The number that a document is. -/
def float? : Document → Option Float
  | .number n => (Number.ofNumeral? n).map Number.toFloat
  | _ => none

/-- The list of texts that a document is. -/
def texts? : Document → Option (List String)
  | .array items => items.mapM text?
  | _ => none

end Document

end TraceGen.Json
