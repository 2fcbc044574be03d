import TraceGen.Text.Utf8

/-!
# Texts are read back from their bytes

`Text.decode?_encode` says that the bytes of a text are read as this text. They are read character
by character: the first byte of a character tells how many bytes follow it and between which bounds
the next one lies (`Text.Lead.ofByte?`), and each further byte carries six bits
(`Text.takeTail_continuation`). `Text.nextPiece_utf8EncodeChar` puts this together for the four
forms that a character can have.
-/

namespace TraceGen.Text

/-! ## First bytes -/

/-- The first of two bytes carries five bits, of which not all but the lowest are zero. -/
theorem ofByte?_two {n : Nat} (hlow : 2 ≤ n) (hhigh : n < 32) :
    Lead.ofByte? (0xC0 + n) = some ⟨1, 0x80, 0xBF, n⟩ := by
  unfold Lead.ofByte?
  rw [if_pos (by omega), Nat.add_sub_cancel_left]

/-- The first of three bytes carries four bits. After the least ones a shorter form would do unless
the next byte is large, and after those of surrogates only small ones give a character. -/
theorem ofByte?_three {n : Nat} (h : n < 16) :
    Lead.ofByte? (0xE0 + n) =
      some ⟨2, if n = 0 then 0xA0 else 0x80, if n = 13 then 0x9F else 0xBF, n⟩ := by
  by_cases hleast : n = 0
  · rw [hleast]
    rfl
  · by_cases hsurrogates : n = 13
    · rw [hsurrogates]
      rfl
    · unfold Lead.ofByte?
      rw [if_neg (by omega), if_neg (by omega), if_neg (by omega), if_pos (by omega),
        Nat.add_sub_cancel_left, if_neg hleast, if_neg hsurrogates]

/-- The first of four bytes carries three bits. After the least ones a shorter form would do unless
the next byte is large, and after the greatest ones only small ones give a character. -/
theorem ofByte?_four {n : Nat} (h : n ≤ 4) :
    Lead.ofByte? (0xF0 + n) =
      some ⟨3, if n = 0 then 0x90 else 0x80, if n = 4 then 0x8F else 0xBF, n⟩ := by
  by_cases hleast : n = 0
  · rw [hleast]
    rfl
  · by_cases hgreatest : n = 4
    · rw [hgreatest]
      rfl
    · unfold Lead.ofByte?
      rw [if_neg (by omega), if_neg (by omega), if_neg (by omega), if_neg (by omega),
        if_neg (by omega), if_pos (by omega), Nat.add_sub_cancel_left, if_neg hleast,
        if_neg hgreatest]

/-! ## Further bytes -/

/-- A byte that follows within a character: it carries the lowest six bits of a number. -/
def continuation (n : Nat) : UInt8 :=
  UInt8.ofNat (n % 64 + 0x80)

/-- The value of a byte that follows. -/
theorem toNat_continuation (n : Nat) : (continuation n).toNat = n % 64 + 0x80 := by
  unfold continuation
  rw [UInt8.toNat_ofNat']
  omega

/-- A byte that follows adds its six bits if it lies between the bounds. -/
theorem takeTail_continuation {need low high acc n : Nat} {rest : Bytes}
    (hlow : low ≤ n % 64 + 0x80) (hhigh : n % 64 + 0x80 ≤ high) :
    takeTail (need + 1) low high acc (continuation n :: rest) =
      takeTail need 0x80 0xBF (acc * 64 + n % 64) rest := by
  have hbits : (n % 64 + 0x80) % 64 = n % 64 := by omega
  rw [takeTail, toNat_continuation, if_pos ⟨hlow, hhigh⟩, hbits]

/-! ## Characters -/

/-- A first byte that announces a form is followed by the tail of this form. -/
theorem nextPiece_of_lead {b : UInt8} {rest rest' : Bytes} {lead : Lead} {v : Nat}
    (hlead : Lead.ofByte? b.toNat = some lead) (hlarge : 0x80 ≤ b.toNat)
    (htail : takeTail lead.tail lead.low lead.high lead.bits rest = (some v, rest')) :
    nextPiece b rest = (some (Char.ofNat v), rest') := by
  unfold nextPiece
  rw [if_neg (Nat.not_lt.2 hlarge), hlead]
  dsimp only
  rw [htail]
  rfl

/-- A number below 128 is one byte. -/
theorem nextPiece_one {v : Nat} (h : v < 0x80) (rest : Bytes) :
    nextPiece (UInt8.ofNat v) rest = (some (Char.ofNat v), rest) := by
  have hfirst : (UInt8.ofNat v).toNat = v := by
    rw [UInt8.toNat_ofNat']
    omega
  rw [nextPiece, hfirst, if_pos h]

/-- A number of at most eleven bits is read from two bytes. -/
theorem nextPiece_two {v : Nat} (hlow : 0x80 ≤ v) (hhigh : v < 0x800) (rest : Bytes) :
    nextPiece (UInt8.ofNat (v / 64 % 32 + 0xC0)) (continuation v :: rest) =
      (some (Char.ofNat v), rest) := by
  have hfirst : (UInt8.ofNat (v / 64 % 32 + 0xC0)).toNat = 0xC0 + v / 64 := by
    rw [UInt8.toNat_ofNat']
    omega
  refine nextPiece_of_lead (hfirst ▸ ofByte?_two (by omega) (by omega)) (by omega) ?_
  dsimp only
  rw [takeTail_continuation (by omega) (by omega), takeTail, Nat.div_add_mod' v 64]

/-- A number of at most sixteen bits is read from three bytes, unless it is a surrogate. -/
theorem nextPiece_three {v : Nat} (hlow : 0x800 ≤ v) (hhigh : v < 0x10000)
    (hvalid : v < 0xD800 ∨ 0xDFFF < v) (rest : Bytes) :
    nextPiece (UInt8.ofNat (v / 4096 % 16 + 0xE0))
        (continuation (v / 64) :: continuation v :: rest) = (some (Char.ofNat v), rest) := by
  have hfirst : (UInt8.ofNat (v / 4096 % 16 + 0xE0)).toNat = 0xE0 + v / 4096 := by
    rw [UInt8.toNat_ofNat']
    omega
  refine nextPiece_of_lead (hfirst ▸ ofByte?_three (by omega)) (by omega) ?_
  dsimp only
  -- The number needs three bytes and is no surrogate, so the narrower bounds hold as well.
  have hnext : (if v / 4096 = 0 then 0xA0 else 0x80) ≤ v / 64 % 64 + 0x80 ∧
      v / 64 % 64 + 0x80 ≤ if v / 4096 = 13 then 0x9F else 0xBF := by
    constructor <;> split <;> omega
  have hvalue : (v / 4096 * 64 + v / 64 % 64) * 64 + v % 64 = v := by omega
  rw [takeTail_continuation hnext.1 hnext.2, takeTail_continuation (by omega) (by omega), takeTail,
    hvalue]

/-- A number that a character has and that needs more bits is read from four bytes. -/
theorem nextPiece_four {v : Nat} (hlow : 0x10000 ≤ v) (hhigh : v < 0x110000) (rest : Bytes) :
    nextPiece (UInt8.ofNat (v / 262144 % 8 + 0xF0))
        (continuation (v / 4096) :: continuation (v / 64) :: continuation v :: rest) =
      (some (Char.ofNat v), rest) := by
  have hfirst : (UInt8.ofNat (v / 262144 % 8 + 0xF0)).toNat = 0xF0 + v / 262144 := by
    rw [UInt8.toNat_ofNat']
    omega
  refine nextPiece_of_lead (hfirst ▸ ofByte?_four (by omega)) (by omega) ?_
  dsimp only
  -- The number needs four bytes and is that of a character, so the narrower bounds hold as well.
  have hnext : (if v / 262144 = 0 then 0x90 else 0x80) ≤ v / 4096 % 64 + 0x80 ∧
      v / 4096 % 64 + 0x80 ≤ if v / 262144 = 4 then 0x8F else 0xBF := by
    constructor <;> split <;> omega
  have hvalue : ((v / 262144 * 64 + v / 4096 % 64) * 64 + v / 64 % 64) * 64 + v % 64 = v := by omega
  rw [takeTail_continuation hnext.1 hnext.2, takeTail_continuation (by omega) (by omega),
    takeTail_continuation (by omega) (by omega), takeTail, hvalue]

/-- The bytes of a character are read as this character, whatever follows. -/
theorem nextPiece_utf8EncodeChar (c : Char) (rest : Bytes) :
    ∃ b tail, String.utf8EncodeChar c = b :: tail ∧
      nextPiece b (tail ++ rest) = (some c, rest) := by
  have hchar : Char.ofNat c.val.toNat = c := Char.ofNat_toNat c
  have hvalid : c.val.toNat < 0xD800 ∨ 0xDFFF < c.val.toNat ∧ c.val.toNat < 0x110000 := c.valid
  unfold String.utf8EncodeChar
  dsimp only
  generalize c.val.toNat = v at hchar hvalid
  rw [← hchar]
  split
  · exact ⟨_, [], rfl, nextPiece_one (by omega) rest⟩
  · split
    · exact ⟨_, [continuation v], rfl, nextPiece_two (by omega) (by omega) rest⟩
    · split
      · exact ⟨_, [continuation (v / 64), continuation v], rfl,
          nextPiece_three (by omega) (by omega) (by omega) rest⟩
      · exact ⟨_, [continuation (v / 4096), continuation (v / 64), continuation v], rfl,
          nextPiece_four (by omega) (by omega) rest⟩

/-! ## Texts -/

/-- The pieces of the bytes of characters are these characters. -/
theorem pieces_flatMap_utf8EncodeChar (cs : List Char) :
    pieces (cs.flatMap String.utf8EncodeChar) = cs.map some := by
  induction cs with
  | nil =>
    rw [List.flatMap_nil, pieces]
    rfl
  | cons c cs ih =>
    obtain ⟨b, tail, hbytes, hpiece⟩ :=
      nextPiece_utf8EncodeChar c (cs.flatMap String.utf8EncodeChar)
    rw [List.flatMap_cons, hbytes, List.cons_append, pieces, hpiece, ih, List.map_cons]

/-- The bytes of a text are read as this text. -/
theorem decode?_encode (s : String) : decode? (encode s) = some s := by
  have hall : (s.toList.map some).mapM id = some s.toList := by
    rw [List.mapM_map]
    exact (List.mapM_pure (f := id)).trans (by rw [List.map_id]; rfl)
  rw [decode?, encode, pieces_flatMap_utf8EncodeChar, hall, Option.map_some, String.ofList_toList]

end TraceGen.Text
