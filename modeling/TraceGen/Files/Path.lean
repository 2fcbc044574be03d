/-!
# Paths

A path is a text of names between slashes. `join` continues one path by another, which replaces it
if it begins at the root, and `parent?` drops the last name. Both keep the spelling of what remains.
`pieces` are the names in order, with empty ones where slashes meet.
-/

namespace TraceGen

/-- The text of a path. -/
abbrev Path := String

namespace Path

/-- Whether a path begins at the root. -/
def isAbsolute (p : Path) : Bool :=
  p.toList.head? == some '/'

/-- Continues the path `base` by the path `p`. -/
def join (base p : Path) : Path :=
  if isAbsolute p then p
  else if base.isEmpty || base.toList.getLast? == some '/' then base ++ p
  else base ++ "/" ++ p

/-- The pieces between the slashes. -/
def pieces (p : Path) : List String :=
  (p.toList.splitOn '/').map String.ofList

/-- The path without slashes at its end. -/
def withoutSlashes (p : Path) : Path :=
  String.ofList (p.toList.reverse.dropWhile (· = '/')).reverse

/-- Drops the pieces at the end that name nothing: empty ones and those of one dot. A dot that is
the whole path stays. -/
def dropIdle : List String → List String
  | [] => []
  | piece :: before =>
    if piece = "" ∨ (piece = "." ∧ before ≠ []) then dropIdle before else piece :: before

/-- The path without its last name; none if it has no name. -/
def parent? (p : Path) : Option Path :=
  match dropIdle (pieces p).reverse with
  | [] => none
  | _ :: before =>
    match dropIdle before with
    | [] => some (if isAbsolute p then "/" else "")
    | names => some (String.intercalate "/" names.reverse)

/-- The number of bytes that a path must stay below. -/
def maxBytes : Nat := 4096

/-- The number of bytes that a name may have. -/
def maxNameBytes : Nat := 255

/-- Whether a text can be a path at all: it is not empty, holds no NUL and is not too long. -/
def isUsable (p : Path) : Bool :=
  !p.isEmpty && !p.toList.contains '\x00' && p.utf8ByteSize < maxBytes

end Path

end TraceGen
