/-!
# Substitution

`occurs pat` asks whether a text holds `pat`, and `replaceAll pat rep` writes `rep` for every
occurrence, left to right, going on behind each one; what it wrote is not looked at again.
-/

namespace TraceGen.Text

/-- Whether `pat` occurs in a text. -/
def occurs (pat : List Char) : List Char → Bool
  | [] => pat.isEmpty
  | c :: cs => pat.isPrefixOf (c :: cs) || occurs pat cs

/-- Writes `rep` for the occurrences of `pat` after passing over `skip` characters. -/
def replaceFrom (pat rep : List Char) : Nat → List Char → List Char
  | _, [] => []
  | skip + 1, _ :: cs => replaceFrom pat rep skip cs
  | 0, c :: cs =>
    if pat.isPrefixOf (c :: cs) then rep ++ replaceFrom pat rep (pat.length - 1) cs
    else c :: replaceFrom pat rep 0 cs

/-- Writes `rep` for every occurrence of the text `pat`, which is not empty. -/
def replaceAll (pat rep text : String) : String :=
  String.ofList (replaceFrom pat.toList rep.toList 0 text.toList)

/-- Whether the text holds `pat`. -/
def holds (pat text : String) : Bool :=
  occurs pat.toList text.toList

/-- Whether the text begins with `start`. -/
def startsWith (start text : String) : Bool :=
  start.toList.isPrefixOf text.toList

/-- The text before and after its first character `c`, if it has one. -/
def cutAt (c : Char) (text : List Char) : Option (List Char × List Char) :=
  match text.dropWhile (· ≠ c) with
  | [] => none
  | _ :: after => some (text.takeWhile (· ≠ c), after)

end TraceGen.Text
