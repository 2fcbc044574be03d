import Mathlib.Tactic.SplitIfs
import TraceGen.KeyMap
import TraceGen.Text.Utf8

/-!
# The order of texts is that of their bytes

Texts are compared character by character. `Text.encode_lt_encode` says that their bytes in UTF-8
compare in the same way, so that a walk over the entries of a map meets its keys in byte order
(`KeyMap.pairwise_encode_lt`), and that the bytes tell the text (`Text.encode_injective`).
-/

namespace TraceGen

namespace Text

/-- The bytes of a lesser character come first, whatever follows. -/
theorem utf8EncodeChar_append_lt {c d : Char} (h : c < d) (x y : Bytes) :
    String.utf8EncodeChar c ++ x < String.utf8EncodeChar d ++ y := by
  have hlt : c.val.toNat < d.val.toNat := h
  have hmax : d.val.toNat < 0x110000 := by
    rcases d.valid with hd | ⟨-, hd⟩
    · exact Nat.lt_trans hd (by decide)
    · exact hd
  unfold String.utf8EncodeChar
  simp only
  generalize c.val.toNat = v at hlt ⊢
  generalize d.val.toNat = w at hlt hmax ⊢
  have hthird (x : Nat) : x / 4096 = x / 64 / 64 := by omega
  have hfourth (x : Nat) : x / 262144 = x / 64 / 64 / 64 := by omega
  -- The forms differ in their first byte when they differ in length, and else in some digit.
  split_ifs <;>
    simp only [List.cons_append, List.nil_append, List.cons_lt_cons_iff, UInt8.lt_iff_toNat_lt,
      ← UInt8.toNat_inj, UInt8.toNat_ofNat', hthird, hfourth] <;>
    omega

/-- The bytes of a lesser text come first. -/
theorem encode_lt_encode {a b : String} (h : a < b) : encode a < encode b := by
  have hlist : a.toList < b.toList := String.lt_iff.1 h
  unfold encode
  generalize a.toList = cs at hlist ⊢
  generalize b.toList = ds at hlist ⊢
  induction cs generalizing ds with
  | nil =>
    cases ds with
    | nil => cases hlist
    | cons d ds =>
      obtain ⟨e, es, he⟩ := List.exists_cons_of_ne_nil (String.utf8EncodeChar_ne_nil (c := d))
      rw [List.flatMap_nil, List.flatMap_cons, he]
      exact List.nil_lt_cons _ _
  | cons c cs ih =>
    cases ds with
    | nil => cases hlist
    | cons d ds =>
      rw [List.flatMap_cons, List.flatMap_cons]
      rcases List.cons_lt_cons_iff.1 hlist with hlt | ⟨rfl, hlt⟩
      · exact utf8EncodeChar_append_lt hlt _ _
      · exact List.append_left_lt (ih ds hlt)

/-- The bytes of a text come before those of a longer one that begins with it. -/
theorem encode_lt_encode_of_prefix {a b : String} (h : a.toList <+: b.toList) (hne : a ≠ b) :
    encode a < encode b := by
  obtain ⟨rest, hrest⟩ := h
  cases rest with
  | nil => exact absurd (String.toList_injective (by rw [← hrest, List.append_nil])) hne
  | cons c rest =>
    have hless : a.toList ++ [] < a.toList ++ c :: rest :=
      List.append_left_lt (List.nil_lt_cons c rest)
    rw [List.append_nil, hrest] at hless
    exact encode_lt_encode (String.lt_iff.2 hless)

/-- Different texts have different bytes. -/
theorem encode_injective {a b : String} (h : encode a = encode b) : a = b := by
  apply String.le_antisymm
  · intro hlt
    have hless := encode_lt_encode hlt
    rw [h] at hless
    exact List.lt_irrefl _ hless
  · intro hlt
    have hless := encode_lt_encode hlt
    rw [h] at hless
    exact List.lt_irrefl _ hless

/-- Texts are in the order of their bytes. -/
theorem encode_lt_encode_iff {a b : String} : encode a < encode b ↔ a < b := by
  refine ⟨fun hless => Decidable.byContradiction fun hnot => ?_, encode_lt_encode⟩
  rcases Decidable.em (b < a) with hgreater | hnot'
  · exact List.lt_asymm hless (encode_lt_encode hgreater)
  · rw [String.le_antisymm hnot' hnot] at hless
    exact List.lt_irrefl _ hless

end Text

/-- The keys of a map stand in byte order. -/
theorem KeyMap.pairwise_encode_lt {α : Type} (m : KeyMap α) :
    m.entries.Pairwise fun a b => Text.encode a.1 < Text.encode b.1 :=
  m.sorted.imp Text.encode_lt_encode

end TraceGen
