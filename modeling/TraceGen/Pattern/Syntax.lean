/-!
# The syntax of patterns

A `Pattern` is a regular expression as it is written: alternations, sequences, counted repetitions,
groups, assertions, and classes of characters with set operations. Flags are kept where they stand;
what they change is decided by `Pattern/Meaning.lean`. `Pattern.depth` counts the nesting.
-/

namespace TraceGen

namespace Pattern

/-- What a flag letter switches. -/
inductive Flag where
  | ignoreCase
  | multiLine
  | dotAll
  | swapGreed
  | unicode
  | crlf
  | verbose
deriving DecidableEq, Repr

/-- Flags with what each is set to. -/
abbrev FlagChanges := List (Flag × Bool)

/-- What a group of flags sets the flag `f` to, if it names it. -/
def FlagChanges.find? (changes : FlagChanges) (f : Flag) : Option Bool :=
  (List.find? (fun change => change.1 = f) changes).map (·.2)

/-- A character that stands for itself, and whether it is written as the value of a byte. -/
structure Literal where
  /-- The character. -/
  char : Char
  /-- Whether it is written by two hexadecimal digits. -/
  isByte : Bool
deriving DecidableEq, Repr

/-- Places in a text that an assertion picks out. -/
inductive Assertion where
  | lineStart
  | lineEnd
  | textStart
  | textEnd
  | wordBoundary
  | notWordBoundary
  | wordStart
  | wordEnd
  | wordStartHalf
  | wordEndHalf
deriving DecidableEq, Repr

/-- Classes with an escape letter of their own. -/
inductive Shorthand where
  | digit
  | space
  | word
deriving DecidableEq, Repr

/-- A class asked for by the name of a property, or by a property and its value. -/
structure NamedClass where
  /-- The name of the property, or the one name. -/
  name : List Char
  /-- The value, if one is given. -/
  value : Option (List Char)
deriving DecidableEq, Repr

/-- Operations on two classes. -/
inductive SetOp where
  | intersection
  | difference
  | symmetricDifference
deriving DecidableEq, Repr

/-- A class of characters in brackets and what may stand inside. -/
inductive CharSet where
  | none
  | one (l : Literal)
  | range (low high : Literal)
  | ascii (name : List Char) (negated : Bool)
  | shorthand (k : Shorthand) (negated : Bool)
  | named (q : NamedClass) (negated : Bool)
  | bracket (negated : Bool) (body : CharSet)
  | union (first rest : CharSet)
  | combine (op : SetOp) (left right : CharSet)
deriving Repr

/-- The union of items in a row. -/
def CharSet.unionOf : List CharSet → CharSet
  | [] => .none
  | [a] => a
  | a :: b :: rest => .union a (unionOf (b :: rest))

/-- How deep classes nest; a union of several items counts once. -/
def CharSet.depth : CharSet → Nat
  | .bracket _ body => 1 + body.depth
  | .union a b =>
    max (1 + a.depth) (match b with
      | .union _ _ => b.depth
      | _ => 1 + b.depth)
  | .combine _ a b => 1 + max a.depth b.depth
  | _ => 0

end Pattern

/-- A regular expression as written. -/
inductive Pattern where
  | empty
  | setFlags (changes : Pattern.FlagChanges)
  | literal (l : Pattern.Literal)
  | dot
  | assertion (a : Pattern.Assertion)
  | shorthand (k : Pattern.Shorthand) (negated : Bool)
  | named (q : Pattern.NamedClass) (negated : Bool)
  | set (s : Pattern.CharSet)
  | times (least : Nat) (most : Option Nat) (body : Pattern)
  | group (changes : Pattern.FlagChanges) (body : Pattern)
  | seq (first rest : Pattern)
  | alt (first rest : Pattern)
deriving Repr

namespace Pattern

/-- Patterns one after another. -/
def seqOf : List Pattern → Pattern
  | [] => .empty
  | [p] => p
  | p :: q :: rest => .seq p (seqOf (q :: rest))

/-- Patterns of which one is to match. -/
def altOf : List Pattern → Pattern
  | [] => .empty
  | [p] => p
  | p :: q :: rest => .alt p (altOf (q :: rest))

/-- How deep a pattern nests; several patterns in a row, or as alternatives, count once. -/
def depth : Pattern → Nat
  | .set s => s.depth
  | .times _ _ p => 1 + p.depth
  | .group _ p => 1 + p.depth
  | .seq p q =>
    max (1 + p.depth) (match q with
      | .seq _ _ => q.depth
      | _ => 1 + q.depth)
  | .alt p q =>
    max (1 + p.depth) (match q with
      | .alt _ _ => q.depth
      | _ => 1 + q.depth)
  | _ => 0

end Pattern

end TraceGen
