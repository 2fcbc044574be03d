import TraceGen.Text.Utf8

/-!
# Hexadecimal digits

Digits beyond nine are small letters, and a byte takes two digits. `hexText_injective` says that the
digits tell the bytes.
-/

namespace TraceGen.Text

/-- The digit of a number below 16. -/
def hexDigit (n : Nat) : Char :=
  if n < 10 then Char.ofNat (48 + n) else Char.ofNat (87 + n)

/-- The digits of bytes. -/
def hexText (bs : Bytes) : String :=
  String.ofList (bs.flatMap fun b => [hexDigit (b.toNat / 16), hexDigit (b.toNat % 16)])

/-- Different numbers below 16 have different digits. -/
theorem hexDigit_injective : ∀ {m n : Fin 16}, hexDigit m = hexDigit n → m = n := by decide

/-- Different bytes have different digits. -/
theorem hexText_injective {as bs : Bytes} (h : hexText as = hexText bs) : as = bs := by
  have hdigits := String.ofList_injective h
  clear h
  induction as generalizing bs with
  | nil =>
    cases bs with
    | nil => rfl
    | cons b bs => cases hdigits
  | cons a as ih =>
    cases bs with
    | nil => cases hdigits
    | cons b bs =>
      simp only [List.flatMap_cons, List.cons_append, List.nil_append, List.cons.injEq] at hdigits
      obtain ⟨hhigh, hlow, hrest⟩ := hdigits
      have ha := a.toNat_lt
      have hb := b.toNat_lt
      have hdiv : a.toNat / 16 = b.toNat / 16 :=
        congrArg Fin.val
          (@hexDigit_injective ⟨a.toNat / 16, by omega⟩ ⟨b.toNat / 16, by omega⟩ hhigh)
      have hmod : a.toNat % 16 = b.toNat % 16 :=
        congrArg Fin.val
          (@hexDigit_injective ⟨a.toNat % 16, by omega⟩ ⟨b.toNat % 16, by omega⟩ hlow)
      have hab : a = b := UInt8.toNat_inj.1 (by omega)
      rw [hab, ih hrest]

end TraceGen.Text
