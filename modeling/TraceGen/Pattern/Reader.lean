import TraceGen.Pattern.Syntax
import TraceGen.Text.Blank
import TraceGen.Text.Digits
import TraceGen.Unicode.Property

/-!
# Reading patterns

`Pattern.parse?` reads a pattern from its text. A reader takes what it reads off the front of a list
of characters and returns the rest; it fails where the text is not a pattern. In verbose mode blanks
and comments between the parts of a pattern count for nothing. Reading a body ends before a closing
parenthesis, so that groups and the whole pattern have one reader.
-/

namespace TraceGen

namespace Pattern

/-- Drops blanks and comments at the front; `inComment` says whether a comment has begun. -/
def dropComments : Bool → List Char → List Char
  | _, [] => []
  | true, c :: cs => dropComments (c != '\n') cs
  | false, c :: cs =>
    if Text.isBlank c then dropComments false cs
    else if c = '#' then dropComments true cs
    else c :: cs

/-- Drops what verbose mode passes over. -/
def skip (verbose : Bool) (cs : List Char) : List Char :=
  if verbose then dropComments false cs else cs

/-- Takes a number of hexadecimal digits. -/
def readHexDigits? (verbose : Bool) : Nat → Nat → List Char → Option (Char × List Char)
  | 0, acc, cs => (Text.charOfNat? acc).map (·, cs)
  | _ + 1, _, [] => none
  | n + 1, acc, c :: cs => do
    let d ← Text.hexValue? c
    readHexDigits? verbose n (16 * acc + d) (skip verbose cs)

/-- Takes hexadecimal digits up to a closing brace. -/
def readHexBrace? (verbose : Bool) : Nat → Option Nat → List Char → Option (Char × List Char)
  | 0, _, _ => none
  | fuel + 1, acc, cs =>
    match skip verbose cs with
    | [] => none
    | '\x7d' :: rest => do
      let c ← Text.charOfNat? (← acc)
      return (c, rest)
    | c :: rest => do
      let d ← Text.hexValue? c
      readHexBrace? verbose fuel (some (16 * acc.getD 0 + d)) rest

/-- Takes a character written by its number, after a letter that announces `digits` of them. -/
def readHex? (verbose : Bool) (digits : Nat) (cs : List Char) : Option (Literal × List Char) :=
  match skip verbose cs with
  | [] => none
  | '\x7b' :: rest => do
    let (c, rest) ← readHexBrace? verbose (rest.length + 1) none rest
    return (⟨c, false⟩, rest)
  | rest => do
    let (c, rest) ← readHexDigits? verbose digits 0 rest
    return (⟨c, digits == 2⟩, rest)

/-- Takes the characters up to a closing brace. -/
def readBraced? (verbose : Bool) : Nat → List Char → Option (List Char × List Char)
  | 0, _ => none
  | fuel + 1, cs =>
    match skip verbose cs with
    | [] => none
    | '\x7d' :: rest => some ([], rest)
    | c :: rest => do
      let (name, rest) ← readBraced? verbose fuel rest
      return (c :: name, rest)

/-- Splits a text at the first occurrence of `mark`. -/
def splitAtMark? (mark : List Char) : List Char → Option (List Char × List Char)
  | [] => none
  | c :: cs =>
    if mark.isPrefixOf (c :: cs) then some ([], (c :: cs).drop mark.length)
    else (splitAtMark? mark cs).map fun (before, after) => (c :: before, after)

/-- What stands between the braces of a named class, and whether it is negated inside. -/
def NamedClass.ofBraced (name : List Char) : NamedClass × Bool :=
  match splitAtMark? ['!', '='] name with
  | some (p, v) => (⟨p, some v⟩, true)
  | none =>
    match (splitAtMark? [':'] name).or (splitAtMark? ['='] name) with
    | some (p, v) => (⟨p, some v⟩, false)
    | none => (⟨name, none⟩, false)

/-- What an escape, a dot or a single character stands for. -/
inductive Atom where
  | literal (l : Literal)
  | assertion (a : Assertion)
  | shorthand (k : Shorthand) (negated : Bool)
  | named (q : NamedClass) (negated : Bool)

/-- Takes a named class after its letter. -/
def readNamed? (verbose negated : Bool) (cs : List Char) : Option (Atom × List Char) :=
  match skip verbose cs with
  | [] => none
  | '\x7b' :: rest => do
    let (name, rest) ← readBraced? verbose (rest.length + 1) rest
    let (q, inner) := NamedClass.ofBraced name
    return (.named q (negated != inner), rest)
  | c :: rest => if c = '\\' then none else some (.named ⟨[c], none⟩ negated, rest)

/-- The characters with a meaning of their own in patterns. -/
def isMeta (c : Char) : Bool :=
  "\\.+*?()|[]\x7b\x7d^$#&-~".toList.contains c

/-- The characters that a backslash leaves as they are. -/
def isEscapable (c : Char) : Bool :=
  isMeta c || (c.toNat < 128 && !c.isAlphanum && c != '<' && c != '>')

/-- The assertion with this name in braces. -/
def boundaryByName? (name : List Char) : Option Assertion :=
  if name = "start".toList then some .wordStart
  else if name = "end".toList then some .wordEnd
  else if name = "start-half".toList then some .wordStartHalf
  else if name = "end-half".toList then some .wordEndHalf
  else none

/-- Takes the letters and hyphens at the front, with what verbose mode passes over after each. -/
def readLetters (verbose : Bool) : Nat → List Char → List Char × List Char
  | 0, cs => ([], cs)
  | _ + 1, [] => ([], [])
  | fuel + 1, c :: cs =>
    if c.isAlpha || c == '-' then
      let (name, rest) := readLetters verbose fuel (skip verbose cs)
      (c :: name, rest)
    else ([], c :: cs)

/-- Takes what may follow the letter of a word boundary: a brace with a letter behind it must name
a special boundary, any other brace is left to the repetition. -/
def readBoundary? (verbose : Bool) (cs : List Char) : Option (Assertion × List Char) :=
  match cs with
  | '\x7b' :: inner =>
    match skip verbose inner with
    | [] => none
    | c :: rest =>
      if c.isAlpha || c == '-' then
        match readLetters verbose (rest.length + 1) (c :: rest) with
        | (name, '\x7d' :: after) => (boundaryByName? name).map (·, after)
        | _ => none
      else some (.wordBoundary, cs)
  | _ => some (.wordBoundary, cs)

/-- Takes an escape after its backslash. -/
def readEscape? (verbose : Bool) : List Char → Option (Atom × List Char)
  | [] => none
  | c :: cs =>
    if c.isDigit then none
    else if isEscapable c then some (.literal ⟨c, false⟩, cs)
    else
      let plain (n : Nat) : Option (Atom × List Char) :=
        some (.literal ⟨Char.ofNat n, false⟩, cs)
      let hex (digits : Nat) : Option (Atom × List Char) :=
        (readHex? verbose digits cs).map fun (l, rest) => (.literal l, rest)
      match c with
      | 'x' => hex 2
      | 'u' => hex 4
      | 'U' => hex 8
      | 'p' => readNamed? verbose false cs
      | 'P' => readNamed? verbose true cs
      | 'd' => some (.shorthand .digit false, cs)
      | 'D' => some (.shorthand .digit true, cs)
      | 's' => some (.shorthand .space false, cs)
      | 'S' => some (.shorthand .space true, cs)
      | 'w' => some (.shorthand .word false, cs)
      | 'W' => some (.shorthand .word true, cs)
      | 'a' => plain 7
      | 'f' => plain 12
      | 't' => plain 9
      | 'n' => plain 10
      | 'r' => plain 13
      | 'v' => plain 11
      | 'A' => some (.assertion .textStart, cs)
      | 'z' => some (.assertion .textEnd, cs)
      | 'b' => (readBoundary? verbose cs).map fun (a, rest) => (.assertion a, rest)
      | 'B' => some (.assertion .notWordBoundary, cs)
      | '<' => some (.assertion .wordStart, cs)
      | '>' => some (.assertion .wordEnd, cs)
      | _ => none

/-- Takes what may be an end of a range inside a class. -/
def readSetAtom? (verbose : Bool) : List Char → Option (Atom × List Char)
  | [] => none
  | c :: cs => if c = '\\' then readEscape? verbose cs else some (.literal ⟨c, false⟩, cs)

/-- An atom as an item of a class; an assertion is none. -/
def Atom.setItem? : Atom → Option CharSet
  | .literal l => some (.one l)
  | .shorthand k negated => some (.shorthand k negated)
  | .named q negated => some (.named q negated)
  | .assertion _ => none

/-- The character after a hyphen that decides whether the hyphen makes a range. -/
def peek? (verbose : Bool) (cs : List Char) : Option Char :=
  if verbose then
    match cs.dropWhile Text.isBlank with
    | '#' :: rest => (rest.dropWhile Text.isBlank).head?.or cs.head?
    | rest => rest.head?.or cs.head?
  else cs.head?

/-- Takes an item of a class: an atom, or a range between two characters. -/
def readSetRange? (verbose : Bool) (cs : List Char) : Option (CharSet × List Char) := do
  let (first, rest) ← readSetAtom? verbose cs
  match skip verbose rest with
  | [] => none
  | c :: after =>
    let next := peek? verbose after
    if c ≠ '-' ∨ next = some ']' ∨ next = some '-' then
      return (← first.setItem?, c :: after)
    else
      let (second, rest) ← readSetAtom? verbose (skip verbose after)
      match first, second with
      | .literal low, .literal high =>
        if low.char ≤ high.char then some (.range low high, rest) else none
      | _, _ => none

/-- The names of the classes of ASCII characters. -/
def asciiNames : List String :=
  ["alnum", "alpha", "ascii", "blank", "cntrl", "digit", "graph", "lower", "print", "punct",
    "space", "upper", "word", "xdigit"]

/-- Takes an ASCII class after its opening bracket, if one stands there. -/
def readAscii? (cs : List Char) : Option (CharSet × List Char) :=
  match cs with
  | ':' :: cs =>
    let (negated, cs) := match cs with
      | '^' :: cs => (true, cs)
      | cs => (false, cs)
    let name := cs.takeWhile (· ≠ ':')
    match cs.dropWhile (· ≠ ':') with
    | ':' :: ']' :: rest =>
      if asciiNames.contains (String.ofList name) then some (.ascii name negated, rest) else none
    | _ => none
  | _ => none

/-- Closes the items read so far under the operation that waits for them. -/
def closeSet (waiting : Option (SetOp × CharSet)) (items : List CharSet) : CharSet :=
  match waiting with
  | none => .unionOf items
  | some (op, left) => .combine op left (.unionOf items)

mutual

/-- Takes a class after its opening bracket. -/
def readSet? (verbose : Bool) : Nat → List Char → Option (CharSet × List Char)
  | 0, _ => none
  | fuel + 1, cs => do
    let (negated, cs) := match skip verbose cs with
      | '^' :: cs => (true, cs)
      | cs => (false, cs)
    let (body, rest) ← readSetBody? verbose fuel true none [] cs
    return (.bracket negated body, rest)

/-- Takes the inside of a class up to its closing bracket. At the front, as long as `leading` holds,
a hyphen stands for itself, and so does a closing bracket that is the first item. -/
def readSetBody? (verbose : Bool) : Nat → Bool → Option (SetOp × CharSet) → List CharSet →
    List Char → Option (CharSet × List Char)
  | 0, _, _, _, _ => none
  | fuel + 1, leading, waiting, items, cs =>
    let operation (op : SetOp) (rest : List Char) : Option (CharSet × List Char) :=
      readSetBody? verbose fuel false (some (op, closeSet waiting items)) [] rest
    match skip verbose cs with
    | [] => none
    | c :: rest =>
      if leading = true ∧ c = '-' then
        readSetBody? verbose fuel true waiting (items ++ [.one ⟨'-', false⟩]) rest
      else if leading = true ∧ c = ']' ∧ items = [] then
        readSetBody? verbose fuel false waiting [.one ⟨']', false⟩] rest
      else if c = ']' then some (closeSet waiting items, rest)
      else if c = '[' then
        match readAscii? rest with
        | some (item, rest) => readSetBody? verbose fuel false waiting (items ++ [item]) rest
        | none => do
          let (item, rest) ← readSet? verbose fuel rest
          readSetBody? verbose fuel false waiting (items ++ [item]) rest
      else if c = '&' ∧ rest.head? = some '&' then operation .intersection rest.tail
      else if c = '-' ∧ rest.head? = some '-' then operation .difference rest.tail
      else if c = '~' ∧ rest.head? = some '~' then operation .symmetricDifference rest.tail
      else do
        let (item, rest) ← readSetRange? verbose (c :: rest)
        readSetBody? verbose fuel false waiting (items ++ [item]) rest

end

/-- Takes decimal digits, passing over blanks around and, in verbose mode, between them. -/
def readDecimalDigits (verbose : Bool) : Nat → List Char → List Char × List Char
  | 0, cs => ([], cs)
  | _ + 1, [] => ([], [])
  | fuel + 1, c :: cs =>
    if c.isDigit then
      let (ds, rest) := readDecimalDigits verbose fuel (skip verbose cs)
      (c :: ds, rest)
    else ([], skip verbose ((c :: cs).dropWhile Text.isBlank))

/-- The number that a run of digits writes: `none` if there is no digit, `some none` if it does not
fit into 32 bits. -/
def readDecimal (verbose : Bool) (cs : List Char) : Option (Option Nat) × List Char :=
  match readDecimalDigits verbose (cs.length + 1) (cs.dropWhile Text.isBlank) with
  | ([], rest) => (none, rest)
  | (ds, rest) =>
    let n := ds.foldl (fun n d => 10 * n + (d.toNat - 48)) 0
    (some (if n < UInt32.size then some n else none), rest)

/-- Takes the bounds of a counted repetition after its opening brace. -/
def readCounts? (verbose : Bool) (cs : List Char) : Option ((Nat × Option Nat) × List Char) := do
  let (least, rest) := readDecimal verbose (skip verbose cs)
  match rest with
  | ',' :: rest =>
    match skip verbose rest with
    | '\x7d' :: rest => some ((← (← least), none), rest)
    | rest =>
      let low ← (← least)
      let (most, rest) := readDecimal verbose rest
      let high ← (← most)
      match rest with
      | '\x7d' :: rest => if low ≤ high then some ((low, some high), rest) else none
      | _ => none
  | '\x7d' :: rest =>
    let n ← (← least)
    some ((n, some n), rest)
  | _ => none

/-- The flag of a letter. -/
def flagOf? : Char → Option Flag
  | 'i' => some .ignoreCase
  | 'm' => some .multiLine
  | 's' => some .dotAll
  | 'U' => some .swapGreed
  | 'u' => some .unicode
  | 'R' => some .crlf
  | 'x' => some .verbose
  | _ => none

/-- Takes flags up to a colon or a closing parenthesis, which stays. Each flag stands at most once,
and so does the hyphen, which is not last. -/
def readFlags? : Bool → Bool → FlagChanges → List Char → Option (FlagChanges × List Char)
  | _, _, _, [] => none
  | negated, dangling, changes, c :: cs =>
    if c = ':' ∨ c = ')' then if dangling then none else some (changes, c :: cs)
    else if c = '-' then if negated then none else readFlags? true true changes cs
    else
      match flagOf? c with
      | none => none
      | some f =>
        if (changes.find? f).isSome then none
        else readFlags? negated false (changes ++ [(f, !negated)]) cs

/-- Takes the name of a group up to its closing angle bracket. -/
def readName? (cs : List Char) : Option (List Char × List Char) :=
  match cs.takeWhile (· ≠ '>'), cs.dropWhile (· ≠ '>') with
  | c :: name, _ :: rest =>
    let first := c == '_' || Unicode.Property.alphabetic.holds c
    let later (d : Char) : Bool := "_.[]".toList.contains d || Unicode.isAlphanumeric d
    if first && name.all later then some (c :: name, rest) else none
  | _, _ => none

/-- What an opening parenthesis begins. -/
inductive Opening where
  | capture
  | captureNamed (name : List Char)
  | flagged (changes : FlagChanges)
  | flagsOnly (changes : FlagChanges)

/-- Takes the start of a group after its parenthesis. Looking around is refused. -/
def readOpening? (cs : List Char) : Option (Opening × List Char) :=
  match cs with
  | '?' :: '=' :: _ => none
  | '?' :: '!' :: _ => none
  | '?' :: '<' :: '=' :: _ => none
  | '?' :: '<' :: '!' :: _ => none
  | '?' :: 'P' :: '<' :: rest => (readName? rest).map fun (name, rest) => (.captureNamed name, rest)
  | '?' :: '<' :: rest => (readName? rest).map fun (name, rest) => (.captureNamed name, rest)
  | '?' :: rest =>
    match readFlags? false false [] rest with
    | some (changes, ':' :: rest) => some (.flagged changes, rest)
    | some (changes, _ :: rest) => if changes = [] then none else some (.flagsOnly changes, rest)
    | _ => none
  | rest => some (.capture, rest)

/-- An atom as a pattern. -/
def Atom.pattern : Atom → Pattern
  | .literal l => .literal l
  | .assertion a => .assertion a
  | .shorthand k negated => .shorthand k negated
  | .named q negated => .named q negated

/-- Takes a part that is neither a group nor a class nor a repetition. -/
def readPrimitive? (verbose : Bool) : List Char → Option (Pattern × List Char)
  | [] => none
  | '.' :: cs => some (.dot, cs)
  | '^' :: cs => some (.assertion .lineStart, cs)
  | '$' :: cs => some (.assertion .lineEnd, cs)
  | '\\' :: cs => (readEscape? verbose cs).map fun (a, rest) => (a.pattern, rest)
  | c :: cs => some (.literal ⟨c, false⟩, cs)

/-- The last of the parts read, if a repetition may apply to it, and those before. -/
def lastOperand? (items : List Pattern) : Option (List Pattern × Pattern) :=
  match items.getLast? with
  | none => none
  | some (.setFlags _) => none
  | some p => some (items.dropLast, p)

/-- Drops the question mark that makes a repetition lazy, which does not change what matches. -/
def dropLazy : List Char → List Char
  | '?' :: cs => cs
  | cs => cs

/-- What a reader of a body carries along. -/
structure Reading where
  /-- Whether verbose mode is on. -/
  verbose : Bool
  /-- The names of the groups so far. -/
  names : List (List Char)
  /-- The text still to be read. -/
  rest : List Char

/-- Takes a body up to a closing parenthesis or the end, after the alternatives `alts` and the parts
`items` of the present one. -/
def readBody? : Nat → List Pattern → List Pattern → Reading → Option (Pattern × Reading)
  | 0, _, _, _ => none
  | fuel + 1, alts, items, r =>
    let go (items : List Pattern) (rest : List Char) : Option (Pattern × Reading) :=
      readBody? fuel alts items { r with rest := rest }
    let repeated (least : Nat) (most : Option Nat) (rest : List Char) :
        Option (Pattern × Reading) := do
      let (before, p) ← lastOperand? items
      go (before ++ [.times least most p]) (dropLazy rest)
    match skip r.verbose r.rest with
    | [] => some (altOf (alts ++ [seqOf items]), { r with rest := [] })
    | c :: rest =>
      match c with
      | ')' => some (altOf (alts ++ [seqOf items]), { r with rest := c :: rest })
      | '|' => readBody? fuel (alts ++ [seqOf items]) [] { r with rest := rest }
      | '[' => do
        let (s, rest) ← readSet? r.verbose (rest.length + 1) rest
        go (items ++ [.set s]) rest
      | '?' => repeated 0 (some 1) rest
      | '*' => repeated 0 none rest
      | '+' => repeated 1 none rest
      | '\x7b' => do
        let ((least, most), rest) ← readCounts? r.verbose rest
        repeated least most (skip r.verbose rest)
      | '(' => do
        let (opening, rest) ← readOpening? (skip r.verbose rest)
        let enter (names : List (List Char)) (changes : FlagChanges) :
            Option (Pattern × Reading) := do
          let verbose := (changes.find? .verbose).getD r.verbose
          let (body, inner) ← readBody? fuel [] [] ⟨verbose, names, rest⟩
          match inner.rest with
          | ')' :: rest =>
            readBody? fuel alts (items ++ [.group changes body])
              { inner with verbose := r.verbose, rest := rest }
          | _ => none
        match opening with
        | .capture => enter r.names []
        | .captureNamed name => if name ∈ r.names then none else enter (name :: r.names) []
        | .flagged changes => enter r.names changes
        | .flagsOnly changes =>
          readBody? fuel alts (items ++ [.setFlags changes])
            { r with verbose := (changes.find? .verbose).getD r.verbose, rest := rest }
      | _ => do
        let (p, rest) ← readPrimitive? r.verbose (c :: rest)
        go (items ++ [p]) rest

/-- How deep a pattern may nest. -/
def maxDepth : Nat := 250

/-- Reads a text that is a pattern. Every step of the reader takes a character, so the length of the
text is fuel enough. -/
def parse? (text : List Char) : Option Pattern :=
  match readBody? (text.length + 1) [] [] ⟨false, [], text⟩ with
  | some (p, r) => if r.rest = [] ∧ p.depth ≤ maxDepth then some p else none
  | none => none

end Pattern

end TraceGen
