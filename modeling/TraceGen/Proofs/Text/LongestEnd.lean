import Mathlib.Order.Bounds.Basic
import TraceGen.Text.Utf8

/-!
# The end of a text that fits

`Text.lastBytes` keeps of a text what fits into a number of bytes, and drops whole characters from
the front for it. `Text.lastBytes_longest` says that no end of the text that fits is longer, where
an end may start at every boundary: at a byte with which a character begins, or behind the last
one (`Text.IsBoundary`).

The start of this end can also be found in the bytes alone, which go back by the number of bytes
allowed and then forward to the next boundary (`Text.Seeks`). The proof puts three descriptions of
the start together. Going forward ends at the least boundary from there on (`Text.seeks_iff`), the
boundaries are the sizes of the beginnings of the text (`Text.isBoundary_iff`), as only the first
byte of a character can begin one, and dropping characters stops at the least such size
(`Text.exists_dropBytes`), which the length of a character bounds.
-/

namespace TraceGen.Text

/-! ## Sizes -/

/-- No characters have no bytes. -/
theorem byteSize_nil : byteSize [] = 0 :=
  rfl

/-- A character in front adds its bytes. -/
theorem byteSize_cons (c : Char) (cs : List Char) :
    byteSize (c :: cs) = c.utf8Size + byteSize cs :=
  rfl

/-- The bytes of two parts add up. -/
theorem byteSize_append (cs ds : List Char) :
    byteSize (cs ++ ds) = byteSize cs + byteSize ds := by
  induction cs with
  | nil => exact (Nat.zero_add _).symm
  | cons c cs ih => rw [List.cons_append, byteSize_cons, byteSize_cons, ih, Nat.add_assoc]

/-- A text has as many bytes as its characters take. -/
theorem length_encode (s : String) : (encode s).length = byteSize s.toList := by
  unfold encode
  induction s.toList with
  | nil => rfl
  | cons c cs ih =>
    rw [List.flatMap_cons, List.length_append, String.length_utf8EncodeChar, ih, byteSize_cons]

/-! ## Boundaries -/

/-- A place in the bytes of a text where a character begins or where the text ends. -/
def IsBoundary (bs : Bytes) (i : Nat) : Prop :=
  i = bs.length ∨ ∃ b, bs[i]? = some b ∧ b.IsUTF8FirstByte

/-- A boundary lies within the text. -/
theorem IsBoundary.le {bs : Bytes} {i : Nat} (h : IsBoundary bs i) : i ≤ bs.length := by
  rcases h with rfl | ⟨b, hb, -⟩
  · exact Nat.le_refl _
  · exact Nat.le_of_lt (List.getElem?_eq_some_iff.1 hb).1

/-- Among the bytes of the first character only the front is a boundary. -/
theorem isBoundary_first_iff {c : Char} {bs : Bytes} {i : Nat} (hi : i < c.utf8Size) :
    IsBoundary (String.utf8EncodeChar c ++ bs) i ↔ i = 0 := by
  have hlt : i < (String.utf8EncodeChar c).length := by rwa [String.length_utf8EncodeChar]
  have hne : i ≠ (String.utf8EncodeChar c ++ bs).length := by
    rw [List.length_append]
    omega
  unfold IsBoundary
  rw [List.getElem?_append_left hlt, List.getElem?_eq_getElem hlt, or_iff_right hne]
  simp only [Option.some.injEq, exists_eq_left', UInt8.isUTF8FirstByte_getElem_utf8EncodeChar]

/-- Behind a character the boundaries are those of the rest. -/
theorem isBoundary_behind_iff {c : Char} {bs : Bytes} {i : Nat} :
    IsBoundary (String.utf8EncodeChar c ++ bs) (c.utf8Size + i) ↔ IsBoundary bs i := by
  have hbehind : c.utf8Size + i = (String.utf8EncodeChar c).length + i := by
    rw [String.length_utf8EncodeChar]
  unfold IsBoundary
  rw [hbehind, List.length_append, Nat.add_left_cancel_iff,
    List.getElem?_append_right (Nat.le_add_right _ _), Nat.add_sub_cancel_left]

/-- The boundaries are the sizes of the beginnings of a text. -/
theorem isBoundary_iff {cs : List Char} {i : Nat} :
    IsBoundary (cs.flatMap String.utf8EncodeChar) i ↔
      ∃ front, front <+: cs ∧ byteSize front = i := by
  induction cs generalizing i with
  | nil =>
    constructor
    · rintro (rfl | ⟨b, hb, -⟩)
      · exact ⟨[], List.nil_prefix, rfl⟩
      · cases hb
    · rintro ⟨front, hfront, rfl⟩
      rw [List.prefix_nil.1 hfront]
      exact .inl rfl
  | cons c cs ih =>
    rw [List.flatMap_cons]
    -- A place lies among the bytes of the first character or behind them.
    rcases Nat.lt_or_ge i c.utf8Size with hi | hi
    · rw [isBoundary_first_iff hi]
      constructor
      · rintro rfl
        exact ⟨[], List.nil_prefix, rfl⟩
      · rintro ⟨front, hfront, rfl⟩
        rcases List.prefix_cons_iff.1 hfront with rfl | ⟨front', rfl, -⟩
        · rfl
        · rw [byteSize_cons] at hi
          omega
    · obtain ⟨j, rfl⟩ := Nat.exists_eq_add_of_le hi
      rw [isBoundary_behind_iff, ih]
      constructor
      · rintro ⟨front, hfront, rfl⟩
        exact ⟨c :: front, List.cons_prefix_cons.2 ⟨rfl, hfront⟩, byteSize_cons c front⟩
      · rintro ⟨front, hfront, hsize⟩
        rcases List.prefix_cons_iff.1 hfront with rfl | ⟨front', rfl, hfront'⟩
        · have hpos := c.utf8Size_pos
          rw [byteSize_nil] at hsize
          omega
        · rw [byteSize_cons] at hsize
          exact ⟨front', hfront', by omega⟩

/-! ## Going forward -/

/-- Going on byte by byte from the place `i` until a boundary is reached ends at `j`, without
leaving the bytes. -/
inductive Seeks (bs : Bytes) : Nat → Nat → Prop
  /-- At a boundary one stays. -/
  | here {i : Nat} : IsBoundary bs i → Seeks bs i i
  /-- From all other places one goes on by one byte. -/
  | next {i j : Nat} : i < bs.length → ¬ IsBoundary bs i → Seeks bs (i + 1) j → Seeks bs i j

/-- One stops at the least boundary from the start on, and at every such one. -/
theorem seeks_iff {bs : Bytes} {i j : Nat} :
    Seeks bs i j ↔ IsLeast {k | i ≤ k ∧ IsBoundary bs k} j := by
  constructor
  · intro h
    induction h with
    | here hboundary => exact ⟨⟨Nat.le_refl _, hboundary⟩, fun k hk => hk.1⟩
    | next _ hnot _ ih =>
      obtain ⟨⟨hle, hboundary⟩, hleast⟩ := ih
      refine ⟨⟨by omega, hboundary⟩, fun k hk => hleast ⟨?_, hk.2⟩⟩
      exact Nat.lt_of_le_of_ne hk.1 fun heq => hnot (heq ▸ hk.2)
  · rintro ⟨⟨hle, hboundary⟩, hleast⟩
    -- The number of bytes to go on gets smaller.
    induction hsteps : j - i generalizing i with
    | zero =>
      obtain rfl : i = j := by omega
      exact .here hboundary
    | succ steps ih =>
      have hinside : i < bs.length := by
        have hend := hboundary.le
        omega
      have hnot : ¬ IsBoundary bs i := fun h => by
        have hfirst : j ≤ i := hleast ⟨Nat.le_refl i, h⟩
        omega
      have hstill : j ∈ lowerBounds {k | i + 1 ≤ k ∧ IsBoundary bs k} := fun k hk =>
        hleast ⟨Nat.le_of_succ_le hk.1, hk.2⟩
      exact .next hinside hnot (ih hstill (by omega) (by omega))

/-! ## Dropping characters -/

/-- What is dropped is the shortest beginning that has all bytes to be dropped. It has at most
three bytes more. -/
theorem exists_dropBytes {excess : Nat} {cs : List Char} (h : excess ≤ byteSize cs) :
    ∃ front, cs = front ++ dropBytes excess cs ∧
      IsLeast {k | excess ≤ k ∧ ∃ start, start <+: cs ∧ byteSize start = k} (byteSize front) ∧
      byteSize front < excess + 4 := by
  fun_induction dropBytes excess cs with
  | case1 cs =>
    exact ⟨[], rfl, ⟨⟨Nat.zero_le _, [], List.nil_prefix, rfl⟩, fun k _ => Nat.zero_le k⟩,
      by decide⟩
  | case2 excess => exact absurd h (Nat.not_succ_le_zero excess)
  | case3 excess c cs ih =>
    rw [byteSize_cons] at h
    obtain ⟨front, hfront, ⟨⟨hreaches, -⟩, hleast⟩, hless⟩ := ih (by omega)
    have hsize := c.utf8Size_le_four
    refine ⟨c :: front, congrArg (c :: ·) hfront, ⟨⟨?_, c :: front, ?_, rfl⟩, ?_⟩, ?_⟩
    · rw [byteSize_cons]
      omega
    · exact List.cons_prefix_cons.2 ⟨rfl, hfront ▸ List.prefix_append _ _⟩
    · rintro k ⟨hk, start, hstart, rfl⟩
      rcases List.prefix_cons_iff.1 hstart with rfl | ⟨start', rfl, hstart'⟩
      · exact absurd hk (Nat.not_succ_le_zero excess)
      · rw [byteSize_cons] at hk
        rw [byteSize_cons, byteSize_cons]
        have hrest : byteSize front ≤ byteSize start' :=
          hleast ⟨by omega, start', hstart', rfl⟩
        omega
    · rw [byteSize_cons]
      -- A character that has more bytes than are left to be dropped is the last one to go.
      rcases Nat.lt_or_ge (excess + 1) c.utf8Size with hlast | hmore
      · have hnone : byteSize front ≤ byteSize [] :=
          hleast ⟨by rw [Nat.sub_eq_zero_of_le (Nat.le_of_lt hlast)]; exact Nat.zero_le _,
            [], List.nil_prefix, rfl⟩
        rw [byteSize_nil] at hnone
        omega
      · omega

/-! ## The end -/

/-- The end that is kept starts where going back by the bytes allowed and then forward to a boundary
ends, which is within the text. It fits, and every longer end that starts at a boundary does not. So
the whole text is kept exactly if it fits, and otherwise fewer than four of the bytes allowed are
left unused. -/
theorem lastBytes_longest (s : String) (max : Nat) :
    ∃ front, s = front ++ lastBytes max s ∧
      Seeks (encode s) ((encode s).length - max) (encode front).length ∧
      IsBoundary (encode s) (encode front).length ∧
      (encode (lastBytes max s)).length ≤ max ∧
      (∀ i, IsBoundary (encode s) i → i < (encode front).length →
        max < ((encode s).drop i).length) ∧
      (lastBytes max s = s ↔ (encode s).length ≤ max) ∧
      (max < (encode s).length → max < (encode (lastBytes max s)).length + 4) := by
  obtain ⟨front, hfront, hdropped, hless⟩ :=
    exists_dropBytes (Nat.sub_le (byteSize s.toList) max)
  have htext : s = String.ofList front ++ lastBytes max s := by
    rw [lastBytes, ← String.ofList_append, ← hfront, String.ofList_toList]
  have hsize : (encode s).length = byteSize front + (encode (lastBytes max s)).length := by
    rw [length_encode, length_encode, ← byteSize_append, lastBytes, String.toList_ofList, ← hfront]
  have hstart : (encode (String.ofList front)).length = byteSize front := by
    rw [length_encode, String.toList_ofList]
  have hboundary (i : Nat) : IsBoundary (encode s) i ↔
      ∃ start, start <+: s.toList ∧ byteSize start = i :=
    isBoundary_iff
  rw [← length_encode] at hdropped hless
  -- What was dropped ends at the first boundary from which on the text fits.
  have hleast : IsLeast {i | (encode s).length - max ≤ i ∧ IsBoundary (encode s) i}
      (byteSize front) := by
    simpa only [hboundary] using hdropped
  have hreaches : (encode s).length - max ≤ byteSize front := hleast.1.1
  refine ⟨String.ofList front, htext, ?_⟩
  rw [hstart]
  refine ⟨seeks_iff.2 hleast, hleast.1.2, by omega, fun i hi hlonger => ?_,
    ⟨fun hwhole => ?_, fun hfits => ?_⟩, fun hlong => by omega⟩
  · rw [List.length_drop]
    by_contra hfits
    have hbehind : byteSize front ≤ i := hleast.2 ⟨by omega, hi⟩
    omega
  · rw [hwhole] at hsize
    omega
  · rw [lastBytes, ← length_encode, Nat.sub_eq_zero_of_le hfits, dropBytes, String.ofList_toList]

/-- A character of four bytes does not fit into three, which are left unused. -/
theorem lastBytes_longest_of_wide_character :
    3 < (encode "a𝄞").length ∧ lastBytes 3 "a𝄞" = "" ∧
      3 < (encode (lastBytes 3 "a𝄞")).length + 4 := by
  obtain ⟨front, -, -, -, -, -, -, hunused⟩ := lastBytes_longest "a𝄞" 3
  have hlong : 3 < (encode "a𝄞").length := by decide
  exact ⟨hlong, by decide, hunused hlong⟩

end TraceGen.Text
