import TraceGen.Unicode.Property
import TraceGen.Unicode.Script

/-!
# Classes by name

`classByName?` finds the class of characters that a name asks for: a binary property, a general
category or a script, in this order. `classByValue?` finds the class of the characters for which a
property has a value. Names are compared loosely: without regard to case, blanks, hyphens,
underscores, and `is` in front.
-/

namespace TraceGen.Unicode

/-- A name in its loose form. Characters beyond ASCII do not count. -/
def looseName (name : List Char) : String :=
  let (dropped, rest) := match name with
    | a :: b :: rest => if a.toLower = 'i' ∧ b.toLower = 's' then (true, rest) else (false, name)
    | _ => (false, name)
  let letters := (rest.filter fun c => c.toNat < 128 && !" _-".toList.contains c).map Char.toLower
  if dropped ∧ letters = ['c'] then "isc" else String.ofList letters

/-- The class of a general category, where all, the assigned and the ASCII characters count too. -/
def categoryByName? (name : String) : Option (Char → Bool) :=
  if name = "any" then some fun _ => true
  else if name = "ascii" then some fun c => c.toNat < 128
  else if name = "assigned" then some fun c => !Category.isOne ["Cn"] c
  else Category.byName? name

/-- The class with a name. Three names of categories are abbreviations of properties as well; they
mean the category. -/
def classByName? (name : List Char) : Option (Char → Bool) :=
  let name := looseName name
  let property := if ["cf", "sc", "lc"].contains name then none else Property.byName? name
  (property.or (categoryByName? name)).or (Script.byName? name)

/-- The class of the characters for which a property has a value. -/
def classByValue? (property value : List Char) : Option (Char → Bool) :=
  let property := looseName property
  if ["gc", "generalcategory"].contains property then categoryByName? (looseName value)
  else if ["sc", "script"].contains property then Script.byName? (looseName value)
  else none

end TraceGen.Unicode
