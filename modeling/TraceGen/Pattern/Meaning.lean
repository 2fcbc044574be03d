import TraceGen.Pattern.Syntax
import TraceGen.Pattern.Search
import TraceGen.Text.Blank
import TraceGen.Text.Utf8
import TraceGen.Unicode.Folding
import TraceGen.Unicode.Named

/-!
# What patterns mean

`Pattern.expr?` turns a pattern into a regular expression. Flags hold from where they stand to the
end of their group. A pattern means nothing if it names a class that does not exist, if it asks for
bytes that are no text while the flag for Unicode is off, or if it takes up too much room with its
repetitions written out.
-/

namespace TraceGen

/-- The flags in force. -/
structure PatternFlags where
  ignoreCase : Bool
  multiLine : Bool
  dotAll : Bool
  unicode : Bool
  crlf : Bool
deriving DecidableEq, Repr

namespace PatternFlags

/-- The flags at the start of a pattern. -/
def initial : PatternFlags :=
  ⟨false, false, false, true, false⟩

/-- The flags after a group of changes. -/
def change (f : PatternFlags) (changes : Pattern.FlagChanges) : PatternFlags where
  ignoreCase := (changes.find? .ignoreCase).getD f.ignoreCase
  multiLine := (changes.find? .multiLine).getD f.multiLine
  dotAll := (changes.find? .dotAll).getD f.dotAll
  unicode := (changes.find? .unicode).getD f.unicode
  crlf := (changes.find? .crlf).getD f.crlf

end PatternFlags

namespace CharClass

/-- The class of the characters between two. -/
def between (low high : Char) : CharClass :=
  ⟨2 * high.utf8Size, fun c => low ≤ c && c ≤ high⟩

/-- The characters outside a class. -/
def complement (a : CharClass) : CharClass :=
  ⟨a.weight + 8, fun c => !a.holds c⟩

/-- An ASCII letter in the other case; other characters stay. -/
def swapCase (c : Char) : Char :=
  if c.isUpper then c.toLower else c.toUpper

/-- The class closed under a change of case. -/
def foldCase (unicode : Bool) (a : CharClass) : CharClass :=
  if unicode then ⟨2 * a.weight, fun c => (Unicode.Folding.variants c).any a.holds⟩
  else ⟨2 * a.weight, fun c => a.holds c || a.holds (swapCase c)⟩

/-- The class of a union. -/
def union (a b : CharClass) : CharClass :=
  ⟨a.weight + b.weight, fun c => a.holds c || b.holds c⟩

/-- The class of a set operation. -/
def combine (op : Pattern.SetOp) (a b : CharClass) : CharClass :=
  match op with
  | .intersection => ⟨min a.weight b.weight, fun c => a.holds c && b.holds c⟩
  | .difference => ⟨a.weight + b.weight, fun c => a.holds c && !b.holds c⟩
  | .symmetricDifference => ⟨a.weight + b.weight, fun c => a.holds c != b.holds c⟩

end CharClass

namespace Pattern

/-- The white space characters of ASCII. -/
def isAsciiSpace (c : Char) : Bool :=
  c == ' ' || (9 ≤ c.toNat && c.toNat ≤ 13)

/-- The word characters of ASCII. -/
def isAsciiWord (c : Char) : Bool :=
  c.isAlphanum || c == '_'

/-- The ASCII class with a name. -/
def asciiClass (name : String) (c : Char) : Bool :=
  match name with
  | "alnum" => c.isAlphanum
  | "alpha" => c.isAlpha
  | "ascii" => c.toNat < 128
  | "blank" => c == ' ' || c == '\t'
  | "cntrl" => c.toNat < 32 || c.toNat == 127
  | "digit" => c.isDigit
  | "graph" => '!' ≤ c && c ≤ '~'
  | "lower" => c.isLower
  | "print" => ' ' ≤ c && c ≤ '~'
  | "punct" => '!' ≤ c && c ≤ '~' && !c.isAlphanum
  | "space" => isAsciiSpace c
  | "upper" => c.isUpper
  | "word" => isAsciiWord c
  | "xdigit" => c.isDigit || ('a' ≤ c && c ≤ 'f') || ('A' ≤ c && c ≤ 'F')
  | _ => false

/-- The class of a shorthand. Without Unicode its complement would hold bytes that are no text. -/
def Shorthand.class? (unicode : Bool) (k : Shorthand) (negated : Bool) : Option CharClass :=
  if unicode then
    let a : CharClass := match k with
      | .digit => ⟨140, Unicode.isDigit⟩
      | .space => ⟨30, Text.isBlank⟩
      | .word => ⟨1500, Unicode.isWord⟩
    some (if negated then a.complement else a)
  else if negated then none
  else some (match k with
    | .digit => ⟨1, Char.isDigit⟩
    | .space => ⟨1, isAsciiSpace⟩
    | .word => ⟨1, isAsciiWord⟩)

/-- A class closed under case where case is ignored, and its complement where it is negated. -/
def foldAndNegate? (f : PatternFlags) (negated : Bool) (a : CharClass) : Option CharClass :=
  let a := if f.ignoreCase then a.foldCase f.unicode else a
  if negated then if f.unicode then some a.complement else none
  else some a

/-- The class of a name, which counts as one of middle size whatever its size is. -/
def NamedClass.class? (f : PatternFlags) (q : NamedClass) (negated : Bool) : Option CharClass :=
  let found := match q.value with
    | none => Unicode.classByName? q.name
    | some v => Unicode.classByValue? q.name v
  if f.unicode then found.bind fun p => foldAndNegate? f negated ⟨500, p⟩ else none

/-- The character of a literal inside a class. Without Unicode it is one of ASCII. -/
def Literal.inSet? (f : PatternFlags) (l : Literal) : Option Char :=
  if f.unicode ∨ l.char.toNat < 128 then some l.char else none

/-- The class of a class expression. -/
def CharSet.class? (f : PatternFlags) : CharSet → Option CharClass
  | .none => some ⟨1, fun _ => false⟩
  | .one l => do
    let c ← l.inSet? f
    return .between c c
  | .range low high => do
    return .between (← low.inSet? f) (← high.inSet? f)
  | .ascii name negated => foldAndNegate? f negated ⟨2, asciiClass (String.ofList name)⟩
  | .shorthand k negated => k.class? f.unicode negated
  | .named q negated => q.class? f negated
  | .bracket negated body => do
    foldAndNegate? f negated (← body.class? f)
  | .union a b => do
    return (← a.class? f).union (← b.class? f)
  | .combine op a b => do
    let a ← foldAndNegate? f false (← a.class? f)
    let b ← foldAndNegate? f false (← b.class? f)
    return .combine op a b

/-- The class of a literal: its variants where case is ignored. -/
def Literal.class? (f : PatternFlags) (l : Literal) : Option CharClass :=
  let single : CharClass := ⟨l.char.utf8Size, (· == l.char)⟩
  if f.unicode then
    if f.ignoreCase then
      let cs := Unicode.Folding.variants l.char
      if cs.length ≤ 1 then some single
      else some ⟨Text.byteSize cs, fun c => cs.contains c⟩
    else some single
  else if l.isByte ∧ 128 ≤ l.char.toNat then none
  else some (if f.ignoreCase then single.foldCase false else single)

/-- The class of the dot. -/
def dotClass? (f : PatternFlags) : Option CharClass :=
  if !f.unicode then none
  else if f.dotAll then some ⟨8, fun _ => true⟩
  else if f.crlf then some ⟨10, fun c => c != '\n' && c != '\r'⟩
  else some ⟨9, fun c => c != '\n'⟩

/-- Whether an assertion holds between two neighbours, of which there is none at an end. -/
def Assertion.holds (f : PatternFlags) (a : Assertion) (before after : Option Char) : Bool :=
  let isWord (c : Option Char) : Bool :=
    c.any (if f.unicode then Unicode.isWord else isAsciiWord)
  let atStart := before.isNone
  let atEnd := after.isNone
  match a with
  | .textStart => atStart
  | .textEnd => atEnd
  | .lineStart =>
    if !f.multiLine then atStart
    else if f.crlf then
      atStart || before == some '\n' || (before == some '\r' && after != some '\n')
    else atStart || before == some '\n'
  | .lineEnd =>
    if !f.multiLine then atEnd
    else if f.crlf then
      atEnd || after == some '\r' || (after == some '\n' && before != some '\r')
    else atEnd || after == some '\n'
  | .wordBoundary => isWord before != isWord after
  | .notWordBoundary => isWord before == isWord after
  | .wordStart => !isWord before && isWord after
  | .wordEnd => isWord before && !isWord after
  | .wordStartHalf => !isWord before
  | .wordEndHalf => !isWord after

/-- What a pattern means under flags, and the flags behind it. -/
def meaning? (f : PatternFlags) : Pattern → Option (Expr × PatternFlags)
  | .empty => some (.empty, f)
  | .setFlags changes => some (.empty, f.change changes)
  | .literal l => (l.class? f).map fun c => (.chars c, f)
  | .dot => (dotClass? f).map fun c => (.chars c, f)
  | .assertion a => some (.look (a.holds f), f)
  | .shorthand k negated => (k.class? f.unicode negated).map fun c => (.chars c, f)
  | .named q negated => (q.class? f negated).map fun c => (.chars c, f)
  | .set s => (s.class? f).map fun c => (.chars c, f)
  | .times least most p => (meaning? f p).map fun (e, _) => (.times least most e, f)
  | .group changes p => (meaning? (f.change changes) p).map fun (e, _) => (e, f)
  | .seq p q => do
    let (a, f) ← meaning? f p
    let (b, f) ← meaning? f q
    return (.seq a b, f)
  | .alt p q => do
    let (a, f) ← meaning? f p
    let (b, f) ← meaning? f q
    return (.alt a b, f)

/-- How much room an expression may take, by the estimate of `Expr.weight`. -/
def maxWeight : Nat := 327680

/-- The regular expression of a pattern. -/
def expr? (p : Pattern) : Option Expr :=
  match p.meaning? .initial with
  | some (e, _) => if e.weight ≤ maxWeight then some e else none
  | none => none

end Pattern

end TraceGen
