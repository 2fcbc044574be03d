import TraceGen.Yaml.Node
import TraceGen.KeyMap

/-!
# Writing YAML

`Field.write` writes a record whose fields are texts, naturals, lists of texts and maps of texts, in
block style: the items of a list stand at the column of their field and the entries of a map two
columns further. A text is written plain if it then reads back as a text, else between single
quotes; with characters that cannot be shown it needs double quotes and escapes, and with newlines
it becomes a block of lines. Lines are never folded.
-/

namespace TraceGen.Yaml

/-- The ways to write a text. -/
inductive Style where
  | plain
  | single
  | double
  | literal
deriving DecidableEq, Repr

namespace Style

/-- The characters that can be shown. -/
def isShown (c : Char) : Bool :=
  let n := c.toNat
  n == 10 || (0x20 ≤ n && n ≤ 0x7E) || (0xA0 ≤ n && n ≤ 0xFFFD && n != 0xFEFF) || 0x10000 ≤ n

/-- Whether a plain text cannot begin with `c` when `next` follows. -/
def bindsFirst (c : Char) (next : Option Char) : Bool :=
  "#,[]\x7b\x7d&*!|>'\"%@\x60".toList.contains c || ("-?:".toList.contains c && next.all isGap)

/-- Whether a plain text ends before some character behind its first: a colon with white space
behind it, or a number sign with white space before it. -/
def breaksOff : List Char → Bool
  | a :: b :: rest =>
    (b == ':' && rest.head?.all isGap) || (b == '#' && isGap a) || breaksOff (b :: rest)
  | _ => false

/-- Whether two characters in a row satisfy `p` and `q`. -/
def hasPair (p q : Char → Bool) : List Char → Bool
  | a :: b :: rest => (p a && q b) || hasPair p q (b :: rest)
  | _ => false

/-- Whether a text reads as the marker between documents in its first three characters. -/
def beginsAsMarker (cs : List Char) : Bool :=
  cs.take 3 == ['-', '-', '-'] || cs.take 3 == ['.', '.', '.']

/-- Whether single quotes can hold a text. -/
def singleFits (cs : List Char) : Bool :=
  cs.all isShown && !hasPair isBreak (· == ' ') cs && !hasPair (· == ' ') isBreak cs

/-- Whether a text can be written plain, be it read back as a text or not. -/
def plainFits (cs : List Char) : Bool :=
  match cs with
  | [] => true
  | c :: rest =>
    singleFits cs && !cs.any isBreak && c != ' ' && cs.getLast? != some ' ' &&
      !beginsAsMarker cs && !bindsFirst c rest.head? && !breaksOff cs

/-- Whether a block of lines can hold a text. -/
def literalFits (cs : List Char) : Bool :=
  !cs.isEmpty && cs.all isShown && cs.getLast? != some ' ' && !hasPair (· == ' ') isBreak cs

/-- Whether a plain scalar reads back as this text. -/
def readsBack (s : String) : Bool :=
  Node.ofPlain? s == some (.text s) && !Node.hasLeadingZero s.toList

/-- The style of a text; a key on one line is no block. -/
def of (isKey : Bool) (s : String) : Style :=
  let cs := s.toList
  if cs.contains '\n' then
    if !isKey && literalFits cs then .literal else .double
  else if readsBack s && plainFits cs then .plain
  else if singleFits cs then .single
  else .double

end Style

namespace Scalar

/-- `n` spaces. -/
def spaces (n : Nat) : List Char :=
  List.replicate n ' '

/-- The hexadecimal digits of a number, in upper case, with zeros in front. -/
def hexDigits (width n : Nat) : List Char :=
  let ds := (Nat.toDigits 16 n).map Char.toUpper
  List.replicate (width - ds.length) '0' ++ ds

/-- A character between double quotes. -/
def escape (c : Char) : List Char :=
  match c.toNat with
  | 0 => ['\\', '0']
  | 7 => ['\\', 'a']
  | 8 => ['\\', 'b']
  | 9 => ['\\', 't']
  | 10 => ['\\', 'n']
  | 11 => ['\\', 'v']
  | 12 => ['\\', 'f']
  | 13 => ['\\', 'r']
  | 0x1B => ['\\', 'e']
  | 0x22 => ['\\', '"']
  | 0x5C => ['\\', '\\']
  | 0x85 => ['\\', 'N']
  | 0x2028 => ['\\', 'L']
  | 0x2029 => ['\\', 'P']
  | n =>
    if Style.isShown c then [c]
    else if n ≤ 0xFF then '\\' :: 'x' :: hexDigits 2 n
    else if n ≤ 0xFFFF then '\\' :: 'u' :: hexDigits 4 n
    else '\\' :: 'U' :: hexDigits 8 n

/-- The inside of single quotes: quotes are doubled, and what follows a line break is indented. -/
def singleInside (indent : Nat) : Bool → List Char → List Char
  | afterBreak, [] => if afterBreak then spaces indent else []
  | afterBreak, c :: cs =>
    if isBreak c then c :: singleInside indent true cs
    else (if afterBreak then spaces indent else []) ++ (if c = '\'' then ['\'', '\''] else [c]) ++
      singleInside indent false cs

/-- The lines of a block, each line that is not empty indented. -/
def blockInside (indent : Nat) : Bool → List Char → List Char
  | _, [] => []
  | afterBreak, c :: cs =>
    if isBreak c then c :: blockInside indent true cs
    else (if afterBreak then spaces indent else []) ++ c :: blockInside indent false cs

/-- The header of a block: the indentation where the first line hides it, and what the end of the
text asks for. -/
def blockHeader (cs : List Char) : List Char :=
  let hint := if cs.head?.any (fun c => c == ' ' || isBreak c) then ['2'] else []
  let chomp := match cs.reverse with
    | [] => ['-']
    | [c] => if isBreak c then ['+'] else ['-']
    | c :: d :: _ => if !isBreak c then ['-'] else if isBreak d then ['+'] else []
  '|' :: hint ++ chomp

/-- Writes a text whose further lines, if it has any, are indented. -/
def write (style : Style) (indent : Nat) (s : String) : List Char :=
  match style with
  | .plain => s.toList
  | .single => '\'' :: singleInside indent false s.toList ++ ['\'']
  | .double => '"' :: s.toList.flatMap escape ++ ['"']
  | .literal => blockHeader s.toList ++ '\n' :: blockInside indent true s.toList

end Scalar

/-- A value of a record. -/
inductive Field where
  | text (s : String)
  | natural (n : Nat)
  | texts (items : List String)
  | table (entries : KeyMap String)

namespace Field

/-- Ends a line, unless it has ended. -/
def endLine (cs : List Char) : List Char :=
  if cs.getLast?.any isBreak then cs else cs ++ ['\n']

/-- Writes a text as a value, with further lines at a column. -/
def writeText (indent : Nat) (s : String) : List Char :=
  endLine (Scalar.write (Style.of false s) indent s)

/-- Writes an entry of a map. A key of several lines or of more than 128 bytes takes a line of its
own. -/
def writeEntry (entry : String × String) : List Char :=
  let (key, value) := entry
  let cs := key.toList
  if !cs.any isBreak && Text.byteSize cs ≤ 128 then
    ' ' :: ' ' :: Scalar.write (Style.of true key) 4 key ++ ':' :: ' ' :: writeText 4 value
  else
    "  ? ".toList ++ writeText 4 key ++ "  : ".toList ++ writeText 4 value

/-- Writes the value of a field, from behind the colon on. -/
def writeValue : Field → List Char
  | .text s => ' ' :: writeText 2 s
  | .natural n => ' ' :: (toString n).toList ++ ['\n']
  | .texts [] => " []\n".toList
  | .texts items => '\n' :: items.flatMap fun s => '-' :: ' ' :: writeText 2 s
  | .table entries =>
    if entries.isEmpty then " \x7b\x7d\n".toList
    else '\n' :: entries.entries.flatMap writeEntry

/-- Writes a record. -/
def write (fields : List (String × Field)) : String :=
  String.ofList (fields.flatMap fun (name, value) => name.toList ++ ':' :: writeValue value)

end Field

end TraceGen.Yaml
