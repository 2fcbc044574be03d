import TraceGen.Yaml.Token
import TraceGen.Yaml.PlainScalar
import TraceGen.Yaml.BlockScalar
import TraceGen.Yaml.TagText

/-!
# Cutting a YAML text into tokens

`Token.scan?` cuts a text into tokens. Block collections start where the indentation of an entry is
deeper than that of the collection around it, and end where it falls back. A key on one line is
recognised only at the colon behind it: until then the place of a possible key is remembered for
every flow collection and for the block around them, and the tokens that announce the key are put in
before it afterwards. A place is forgotten at the end of its line or 1024 characters behind it,
which is an error if only a key can stand there.
-/

namespace TraceGen.Yaml

/-- A place where a key may have begun. -/
structure PossibleKey where
  /-- Whether nothing but a key can stand there. -/
  isRequired : Bool
  /-- The number of tokens before it. -/
  tokens : Nat
  /-- Where it is. -/
  place : Cursor

/-- How far the text has been cut. -/
structure Scanner where
  /-- The place reached. -/
  cursor : Cursor
  /-- The tokens so far. -/
  tokens : Array Token
  /-- The column of the innermost block collection, `-1` outside. -/
  indent : Int
  /-- The columns of the block collections around it. -/
  outer : List Int
  /-- The possible key of each flow collection, innermost first, and that of the block around. -/
  keys : List (Option PossibleKey)
  /-- Whether a key on one line may begin here. -/
  keyAllowed : Bool

namespace Scanner

/-- The scanner of a text. -/
def start (text : List Char) : Scanner :=
  ⟨Cursor.start text, #[], -1, [], [none], true⟩

/-- Whether the place is inside a flow collection. -/
def inFlow (s : Scanner) : Bool :=
  1 < s.keys.length

/-- Adds a token. -/
def emit (t : Token) (s : Scanner) : Scanner :=
  { s with tokens := s.tokens.push t }

/-- Adds a token of `n` characters. -/
def take (t : Token) (n : Nat) (s : Scanner) : Scanner :=
  { s with tokens := s.tokens.push t, cursor := s.cursor.skip n }

/-- Says whether a key on one line may begin next. -/
def allowKey (allowed : Bool) (s : Scanner) : Scanner :=
  { s with keyAllowed := allowed }

/-- Opens a block collection at a column that is deeper than the one around; its token goes before
the token `position`. -/
def openBlock (column position : Nat) (t : Token) (s : Scanner) : Scanner :=
  if s.inFlow = true ∨ (column : Int) ≤ s.indent then s
  else { s with
    tokens := s.tokens.insertIdxIfInBounds position t
    outer := s.indent :: s.outer
    indent := column }

/-- Closes block collections, of the given indentations, that are deeper than a column. -/
def closeBlocks (column : Int) : Int → List Int → Array Token → Int × List Int × Array Token
  | indent, [], tokens => (indent, [], tokens)
  | indent, next :: outer, tokens =>
    if column < indent then closeBlocks column next outer (tokens.push .blockEnd)
    else (indent, next :: outer, tokens)

/-- Closes the block collections that are deeper than a column. -/
def unwind (column : Int) (s : Scanner) : Scanner :=
  if s.inFlow then s
  else
    let (indent, outer, tokens) := closeBlocks column s.indent s.outer s.tokens
    { s with indent := indent, outer := outer, tokens := tokens }

/-- Forgets the innermost possible key, unless it is required. -/
def forgetKey? (s : Scanner) : Option Scanner :=
  match s.keys with
  | some k :: keys => if k.isRequired then none else some { s with keys := none :: keys }
  | _ => some s

/-- Remembers the place as that of a possible key, if a key may begin here. It is required in a
block at the column of the collection. -/
def rememberKey? (s : Scanner) : Option Scanner :=
  if s.keyAllowed then do
    let s ← s.forgetKey?
    let required := !s.inFlow && s.indent == s.cursor.column
    return { s with keys := some ⟨required, s.tokens.size, s.cursor⟩ :: s.keys.tail }
  else some s

/-- Forgets the possible keys on earlier lines or too far back. -/
def forgetStale? (s : Scanner) : Option Scanner := do
  let keys ← s.keys.mapM fun key => match key with
    | none => some none
    | some k =>
      if k.place.line < s.cursor.line ∨ k.place.index + 1024 < s.cursor.index then
        if k.isRequired then none else some none
      else some (some k)
  return { s with keys := keys }

/-- Passes over white space and comments. A line break in a block lets a key begin; a tab counts as
white space only where no key may begin. -/
def skipGap : Nat → Scanner → Scanner
  | 0, s => s
  | fuel + 1, s =>
    let isSpace (x : Char) : Bool := x == ' ' || (x == '\t' && (s.inFlow || !s.keyAllowed))
    let c := s.cursor.skipWhile isSpace
    let c := if c.sees '#' 0 then c.skipWhile (!isBreak ·) else c
    if (c.peek 0).any isBreak then
      skipGap fuel { s with cursor := c.takeBreak.2, keyAllowed := s.keyAllowed || !s.inFlow }
    else { s with cursor := c }

/-- Ends the block collections before a directive, a marker or the end. -/
def endBlocks? (s : Scanner) : Option Scanner := do
  let s ← (s.unwind (-1)).forgetKey?
  return s.allowKey false

/-- Takes the number of a version, of nine digits at most. -/
def takeVersionNumber? (c : Cursor) : Option (Nat × Cursor) :=
  let (ds, c) := c.takeWhile Char.isDigit
  if ds = [] ∨ 9 < ds.length then none
  else some (ds.foldl (fun n d => 10 * n + (d.toNat - 48)) 0, c)

/-- Takes a directive: the version, or a handle of tags. -/
def takeDirective? (c : Cursor) : Option (Token × Cursor) := do
  let (name, c) := (c.skip 1).takeWhile isWordChar
  if !c.gapAt 0 then none
  let c := c.skipWhile isBlank
  let (t, c) ← if name = "YAML".toList then do
      let (major, c) ← takeVersionNumber? c
      if !c.sees '.' 0 then none
      let (minor, c) ← takeVersionNumber? (c.skip 1)
      some (Token.version major minor, c)
    else if name = "TAG".toList then do
      let (handle, c) ← TagText.takeHandle? c
      if 1 < handle.length ∧ handle.getLast? ≠ some '!' then none
      if !(c.peek 0).any isBlank then none
      let (start, c) ← TagText.takeSuffix? true false (c.skipWhile isBlank)
      if !c.gapAt 0 then none
      some (Token.tagHandle (String.ofList handle) start, c)
    else none
  let c := c.skipComment
  if c.atLineEnd then some (t, c.takeBreak.2) else none

/-- Takes the name of an anchor or an alias after its sign. -/
def takeName? (c : Cursor) : Option (String × Cursor) :=
  let (name, c) := (c.skip 1).takeWhile isWordChar
  if name ≠ [] ∧ (c.gapAt 0 ∨ (c.peek 0).any ("?:,]\x7d%@\x60".toList.contains ·)) then
    some (String.ofList name, c)
  else none

/-- Takes the dash of an entry of a block sequence. -/
def blockEntry? (s : Scanner) : Option Scanner := do
  let s ← if s.inFlow then some s
    else if s.keyAllowed then
      some (s.openBlock s.cursor.column s.tokens.size .blockSequenceStart)
    else none
  let s ← s.forgetKey?
  return (s.allowKey true).take .blockEntry 1

/-- Takes the question mark of a key. -/
def key? (s : Scanner) : Option Scanner := do
  let s ← if s.inFlow then some s
    else if s.keyAllowed then
      some (s.openBlock s.cursor.column s.tokens.size .blockMappingStart)
    else none
  let s ← s.forgetKey?
  return (s.allowKey (!s.inFlow)).take .key 1

/-- Takes the colon of a value. If a possible key stands before it, the tokens that announce the
key go before that place. -/
def value? (s : Scanner) : Option Scanner :=
  match s.keys with
  | some k :: keys =>
    let s := { s with tokens := s.tokens.insertIdxIfInBounds k.tokens .key, keys := none :: keys }
    let s := s.openBlock k.place.column k.tokens .blockMappingStart
    some ((s.allowKey false).take .value 1)
  | _ => do
    let s ← if s.inFlow then some s
      else if s.keyAllowed then
        some (s.openBlock s.cursor.column s.tokens.size .blockMappingStart)
      else none
    return (s.allowKey (!s.inFlow)).take .value 1

/-- Takes the opening of a flow collection. -/
def openFlow? (t : Token) (s : Scanner) : Option Scanner := do
  let s ← s.rememberKey?
  return ({ s with keys := none :: s.keys }.allowKey true).take t 1

/-- Takes the closing of a flow collection. -/
def closeFlow? (t : Token) (s : Scanner) : Option Scanner := do
  let s ← s.forgetKey?
  let s := if s.inFlow then { s with keys := s.keys.tail } else s
  return (s.allowKey false).take t 1

/-- Takes an alias, an anchor, a tag or a scalar on which a key may end. -/
def node? (read : Scanner → Option (Token × Cursor)) (s : Scanner) : Option Scanner := do
  let s ← s.rememberKey?
  let (t, c) ← read s
  return { s with cursor := c, keyAllowed := false }.emit t

/-- Takes a block scalar. -/
def blockScalar? (isLiteral : Bool) (s : Scanner) : Option Scanner := do
  let s ← s.forgetKey?
  let (text, c) ← BlockScalar.take? isLiteral s.indent (s.cursor.skip 1)
  return { s with cursor := c, keyAllowed := true }.emit (.scalar (String.ofList text) false)

/-- Takes a quoted scalar. -/
def quotedScalar? (isSingle : Bool) : Scanner → Option Scanner :=
  node? fun s => do
    let (text, c) ← QuotedScalar.take? isSingle (s.cursor.rest.length + 1) [] (s.cursor.skip 1)
    return (.scalar (String.ofList text) false, c)

/-- Takes a plain scalar. A key may begin behind it if it ends in a line break. -/
def plainScalar? (s : Scanner) : Option Scanner := do
  let s ← s.rememberKey?
  let (text, folded, c) ←
    PlainScalar.take? s.inFlow (s.indent + 1) (s.cursor.rest.length + 1) [] .empty s.cursor
  return { s with cursor := c, keyAllowed := folded }.emit (.scalar (String.ofList text) true)

/-- The characters that begin something else than a plain scalar. A tab that is no white space
begins nothing. -/
def isIndicator (x : Char) : Bool :=
  isBlank x || "-?:,[]\x7b\x7d#&*!|>'\"%@\x60".toList.contains x

/-- Whether a plain scalar may begin here. -/
def plainStarts (s : Scanner) (x : Char) : Bool :=
  !isIndicator x || (x == '-' && !(s.cursor.peek 1).any isBlank) ||
    (!s.inFlow && (x == '?' || x == ':') && !s.cursor.gapAt 1)

/-- Takes the next token, or what announces it, before the character `x`. -/
def next? (s : Scanner) (x : Char) : Option Scanner :=
  let c := s.cursor
  if c.column = 0 ∧ x = '%' then do
    let s ← s.endBlocks?
    let (t, c) ← takeDirective? s.cursor
    return { s with cursor := c }.emit t
  else if c.marker '-' then s.endBlocks?.map (take .documentStart 3)
  else if c.marker '.' then s.endBlocks?.map (take .documentEnd 3)
  else if x = '[' then s.openFlow? .flowSequenceStart
  else if x = '\x7b' then s.openFlow? .flowMappingStart
  else if x = ']' then s.closeFlow? .flowSequenceEnd
  else if x = '\x7d' then s.closeFlow? .flowMappingEnd
  else if x = ',' then s.forgetKey?.map fun s => (s.allowKey true).take .flowEntry 1
  else if x = '-' ∧ c.gapAt 1 then s.blockEntry?
  else if x = '?' ∧ (s.inFlow ∨ c.gapAt 1) then s.key?
  else if x = ':' ∧ (s.inFlow ∨ c.gapAt 1) then s.value?
  else if x = '*' then
    s.node? fun s => (takeName? s.cursor).map fun (name, c) => (.alias name, c)
  else if x = '&' then
    s.node? fun s => (takeName? s.cursor).map fun (name, c) => (.anchor name, c)
  else if x = '!' then
    s.node? fun s => (TagText.take? s.inFlow s.cursor).map fun ((h, t), c) => (.tag h t, c)
  else if x = '|' ∧ !s.inFlow then s.blockScalar? true
  else if x = '>' ∧ !s.inFlow then s.blockScalar? false
  else if x = '\'' then s.quotedScalar? true
  else if x = '"' then s.quotedScalar? false
  else if s.plainStarts x then s.plainScalar?
  else none

/-- Cuts the text to its end. -/
def run? : Nat → Scanner → Option (List Token)
  | 0, _ => none
  | fuel + 1, s => do
    let s ← (skipGap (s.cursor.rest.length + 1) s).forgetStale?
    let s := s.unwind s.cursor.column
    match s.cursor.peek 0 with
    | none =>
      let s ← s.endBlocks?
      return (s.emit .streamEnd).tokens.toList
    | some x => run? fuel (← s.next? x)

end Scanner

/-- Cuts a text into tokens, if it holds only characters that YAML admits and they fit together. A
byte order mark at the beginning is passed over. -/
def Token.scan? (text : List Char) : Option (List Token) :=
  if text.all isAllowed then
    let s := Scanner.start text
    let s := if s.cursor.sees '\uFEFF' 0 then { s with cursor := s.cursor.skip 1 } else s
    s.run? (text.length + 2)
  else none

end TraceGen.Yaml
