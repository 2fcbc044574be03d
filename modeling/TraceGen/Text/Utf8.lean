/-!
# UTF-8

`encode` writes a text as bytes. Reading goes piece by piece: `nextPiece` takes the next character,
or the longest start of one when the bytes that follow cannot complete it. `decode?` accepts a byte
sequence whose pieces are all characters, and `decodeLossy` writes U+FFFD for each of the others.
`lastBytes` is the longest end of a text that fits into a number of bytes.
-/

namespace TraceGen

/-- A sequence of bytes. -/
abbrev Bytes := List UInt8

namespace Text

/-- The bytes of a text. -/
def encode (s : String) : Bytes :=
  s.toList.flatMap String.utf8EncodeChar

/-- The number of bytes that characters take. -/
def byteSize (cs : List Char) : Nat :=
  cs.foldr (·.utf8Size + ·) 0

/-- How a character of several bytes goes on after its first byte. -/
structure Lead where
  /-- The number of bytes still to come. -/
  tail : Nat
  /-- The least second byte that keeps the form shortest. -/
  low : Nat
  /-- The greatest second byte that names a scalar value. -/
  high : Nat
  /-- The bits that the first byte carries. -/
  bits : Nat

/-- What a first byte announces, if it may start a character of several bytes. -/
def Lead.ofByte? (b : Nat) : Option Lead :=
  if 0xC2 ≤ b ∧ b ≤ 0xDF then some ⟨1, 0x80, 0xBF, b - 0xC0⟩
  else if b = 0xE0 then some ⟨2, 0xA0, 0xBF, 0⟩
  else if b = 0xED then some ⟨2, 0x80, 0x9F, 13⟩
  else if 0xE1 ≤ b ∧ b ≤ 0xEF then some ⟨2, 0x80, 0xBF, b - 0xE0⟩
  else if b = 0xF0 then some ⟨3, 0x90, 0xBF, 0⟩
  else if 0xF1 ≤ b ∧ b ≤ 0xF3 then some ⟨3, 0x80, 0xBF, b - 0xF0⟩
  else if b = 0xF4 then some ⟨3, 0x80, 0x8F, 4⟩
  else none

/-- Takes `need` bytes of which the first lies between `low` and `high` and the others are plain
continuation bytes; `none` with the rest before the first byte that does not fit. -/
def takeTail : Nat → Nat → Nat → Nat → Bytes → Option Nat × Bytes
  | 0, _, _, acc, rest => (some acc, rest)
  | _ + 1, _, _, _, [] => (none, [])
  | need + 1, low, high, acc, b :: rest =>
    if low ≤ b.toNat ∧ b.toNat ≤ high then
      takeTail need 0x80 0xBF (acc * 64 + b.toNat % 64) rest
    else (none, b :: rest)

/-- Taking a tail leaves no more bytes than there were. -/
theorem length_takeTail_le (need low high acc : Nat) (bs : Bytes) :
    (takeTail need low high acc bs).2.length ≤ bs.length := by
  fun_induction takeTail need low high acc bs with
  | case1 => simp
  | case2 => simp
  | case3 need low high acc b rest hb ih =>
    simp only [List.length_cons]
    omega
  | case4 => simp

/-- The next piece after the first byte `b`: a character, or `none` for an ill-formed start. -/
def nextPiece (b : UInt8) (rest : Bytes) : Option Char × Bytes :=
  if b.toNat < 0x80 then (some (Char.ofNat b.toNat), rest)
  else match Lead.ofByte? b.toNat with
    | none => (none, rest)
    | some lead =>
      let taken := takeTail lead.tail lead.low lead.high lead.bits rest
      (taken.1.map Char.ofNat, taken.2)

/-- A piece uses up its first byte at least. -/
theorem length_nextPiece_le (b : UInt8) (rest : Bytes) :
    (nextPiece b rest).2.length ≤ rest.length := by
  unfold nextPiece
  split
  · simp
  · split
    · simp
    · exact length_takeTail_le _ _ _ _ _

/-- The pieces of a byte sequence in order. -/
def pieces : Bytes → List (Option Char)
  | [] => []
  | b :: rest => (nextPiece b rest).1 :: pieces (nextPiece b rest).2
termination_by bs => bs.length
decreasing_by
  have := length_nextPiece_le b rest
  simp only [List.length_cons]
  omega

/-- The text whose bytes these are, if they are those of a text. -/
def decode? (bs : Bytes) : Option String :=
  ((pieces bs).mapM id).map String.ofList

/-- The text of the bytes, with U+FFFD for each ill-formed piece. -/
def decodeLossy (bs : Bytes) : String :=
  String.ofList ((pieces bs).map (·.getD '\uFFFD'))

/-- Drops characters from the front until `excess` bytes are gone. -/
def dropBytes : Nat → List Char → List Char
  | 0, cs => cs
  | _ + 1, [] => []
  | excess + 1, c :: cs => dropBytes (excess + 1 - c.utf8Size) cs

/-- The longest end of a text that takes at most `max` bytes. -/
def lastBytes (max : Nat) (s : String) : String :=
  String.ofList (dropBytes (byteSize s.toList - max) s.toList)

end Text

end TraceGen
