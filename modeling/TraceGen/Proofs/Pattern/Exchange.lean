import Mathlib.Data.List.Infix
import TraceGen.Pattern.Reader

/-!
# What readers of patterns look at

A body ends at the end of the text or before a closing parenthesis, and what comes then is its tail.
A reader that takes the same characters gives the same whatever the tail is (`Exchange`): it may
look ahead, but neither the end of the text nor a parenthesis tells it anything. There is one
exception. In verbose mode a comment takes in a parenthesis that comes behind it, so that a text
with a `#` on its last line is not the same with a parenthesis behind it (`OpenLine`).

Each reader has one lemma, which says what it takes and that the rest can be exchanged.
-/

namespace TraceGen

namespace Pattern

/-! ## Tails -/

/-- What stands behind a body: nothing, or a closing parenthesis and anything. -/
inductive Tail : List Char → Prop
  | nil : Tail []
  | paren (z : List Char) : Tail (')' :: z)

/-- Texts that differ in a tail at most. -/
inductive Alike : List Char → List Char → Prop
  | tail {t t' : List Char} (h : Tail t) (h' : Tail t') : Alike t t'
  | cons (c : Char) {s s' : List Char} (h : Alike s s') : Alike (c :: s) (c :: s')

/-- A `#` stands on the last line. -/
def OpenLine (text : List Char) : Prop :=
  ∃ before line, text = before ++ '#' :: line ∧ '\n' ∉ line

instance (text : List Char) : Decidable (OpenLine text) :=
  decidable_of_iff (∃ t ∈ text.tails, t.head? = some '#' ∧ '\n' ∉ t) <| by
    simp only [List.mem_tails]
    constructor
    · rintro ⟨t, ⟨before, rfl⟩, hhead, hline⟩
      obtain ⟨line, rfl⟩ := List.head?_eq_some_iff.1 hhead
      exact ⟨before, line, rfl, List.not_mem_of_not_mem_cons hline⟩
    · rintro ⟨before, line, rfl, hline⟩
      exact ⟨'#' :: line, ⟨before, rfl⟩, rfl, by simp [hline]⟩

/-- Behind the text `used` the text `rest` can be exchanged for `rest'`: they differ in a tail at
most, and nothing is put where there was nothing if the last line holds a `#`. -/
structure Exchange (used rest rest' : List Char) : Prop where
  /-- Only tails differ. -/
  alike : Alike rest rest'
  /-- No comment can swallow what is added. -/
  closed : rest = [] → rest' ≠ [] → ¬ OpenLine used

variable {s s' t u v used rest rest' cs : List Char} {c : Char}

/-- The same text in front changes nothing. -/
theorem Alike.append (x : List Char) (h : Alike s s') : Alike (x ++ s) (x ++ s') := by
  induction x with
  | nil => exact h
  | cons c x ih => exact .cons c ih

/-- What is like a text has its first character, or it is empty and this is a parenthesis. -/
theorem Alike.head (h : Alike (c :: s) s') : (s' = [] ∧ c = ')') ∨ ∃ z, s' = c :: z := by
  cases h with
  | tail h h' =>
    cases h
    cases h' with
    | nil => exact .inl ⟨rfl, rfl⟩
    | paren z => exact .inr ⟨z, rfl⟩
  | cons c h => exact .inr ⟨_, rfl⟩

/-- What is like a text that begins with no parenthesis begins in the same way. -/
theorem Alike.cons_of_ne (h : Alike (c :: s) s') (hc : c ≠ ')') :
    ∃ z, s' = c :: z ∧ Alike s z := by
  cases h with
  | tail h _ =>
    cases h
    exact absurd rfl hc
  | cons c h => exact ⟨_, rfl, h⟩

/-- Being alike goes both ways. -/
theorem Alike.symm (h : Alike s s') : Alike s' s := by
  induction h with
  | tail h h' => exact .tail h' h
  | cons c _ ih => exact .cons c ih

/-- What is like nothing is a tail. -/
theorem Alike.tail_of_nil (h : Alike [] s') : Tail s' := by
  cases h with
  | tail _ h' => exact h'

/-- What is like a tail is one. -/
theorem Alike.tail_right (h : Alike t s') (ht : Tail t) : Tail s' := by
  cases h with
  | tail _ h' => exact h'
  | cons c h =>
    cases ht
    exact .paren _

/-- A text that ends with an open line has one. -/
theorem OpenLine.append (h : OpenLine u) (x : List Char) : OpenLine (x ++ u) := by
  obtain ⟨before, line, rfl, hline⟩ := h
  exact ⟨x ++ before, line, by simp, hline⟩

/-- Behind a character that stays, only the tails matter. -/
theorem Exchange.of_cons (h : Alike s s') (used : List Char) (c : Char) :
    Exchange used (c :: s) (c :: s') :=
  ⟨.cons c h, nofun⟩

/-- What can be exchanged behind two texts can be exchanged behind the second one. -/
theorem Exchange.right (h : Exchange (u ++ v) rest rest') : Exchange v rest rest' :=
  ⟨h.alike, fun hnil hne hopen => h.closed hnil hne (hopen.append u)⟩

/-- What can be exchanged behind a character and a text can be exchanged behind the text. -/
theorem Exchange.tail (h : Exchange (c :: u) rest rest') : Exchange u rest rest' :=
  Exchange.right (u := [c]) h

/-- Behind the first of two texts the second one stays. -/
theorem Exchange.left (h : Exchange (u ++ v) rest rest') :
    Exchange u (v ++ rest) (v ++ rest') := by
  refine ⟨h.alike.append v, fun hnil hne => ?_⟩
  obtain ⟨rfl, rfl⟩ := List.append_eq_nil_iff.1 hnil
  rw [List.append_nil] at h
  exact h.closed rfl hne

/-! ## What verbose mode passes over -/

/-- Dropping comments stops at the same place; a comment that has begun ends in a newline. -/
theorem dropComments_takes (inComment : Bool) (cs : List Char) :
    ∃ used, cs = used ++ dropComments inComment cs ∧
      ∀ rest', Exchange (bif inComment then '#' :: used else used)
          (dropComments inComment cs) rest' →
        dropComments inComment (used ++ rest') = rest' := by
  induction cs generalizing inComment with
  | nil =>
    refine ⟨[], by simp [dropComments], fun rest' h => ?_⟩
    rw [dropComments] at h
    cases h.alike.tail_of_nil with
    | nil => rw [List.nil_append, dropComments]
    | paren z =>
      cases inComment with
      | false => rfl
      | true => exact absurd ⟨[], [], rfl, List.not_mem_nil⟩ (h.closed rfl (List.cons_ne_nil _ _))
  | cons c cs ih =>
    cases inComment with
    | true =>
      -- The comment goes on up to a newline, and an open line with it.
      obtain ⟨used, hcs, htakes⟩ := ih (c != '\n')
      rw [dropComments]
      refine ⟨c :: used, congrArg (c :: ·) hcs, fun rest' h => ?_⟩
      refine htakes rest' ⟨h.alike, fun hnil hne hopen => h.closed hnil hne ?_⟩
      by_cases hc : c = '\n'
      · rw [hc] at hopen
        exact OpenLine.append hopen ['#', c]
      · rw [bne_iff_ne.2 hc] at hopen
        obtain ⟨before, line, heq, hline⟩ := hopen
        cases before with
        | nil =>
          obtain ⟨-, rfl⟩ := List.cons.inj heq
          refine ⟨[], c :: used, rfl, ?_⟩
          simp [hline, Ne.symm hc]
        | cons d before =>
          obtain ⟨-, rfl⟩ := List.cons.inj heq
          exact ⟨'#' :: c :: before, line, rfl, hline⟩
    | false =>
      rw [dropComments]
      by_cases hblank : Text.isBlank c
      · obtain ⟨used, hcs, htakes⟩ := ih false
        rw [if_pos hblank]
        refine ⟨c :: used, congrArg (c :: ·) hcs, fun rest' h => ?_⟩
        rw [List.cons_append, dropComments, if_pos hblank]
        exact htakes rest' h.tail
      · rw [if_neg hblank]
        by_cases hhash : c = '#'
        · obtain ⟨used, hcs, htakes⟩ := ih true
          rw [if_pos hhash]
          refine ⟨c :: used, congrArg (c :: ·) hcs, fun rest' h => ?_⟩
          rw [List.cons_append, dropComments, if_neg hblank, if_pos hhash]
          exact htakes rest' (hhash ▸ h)
        · rw [if_neg hhash]
          refine ⟨[], rfl, fun rest' h => ?_⟩
          rcases h.alike.head with ⟨rfl, -⟩ | ⟨z, rfl⟩
          · rfl
          · rw [List.nil_append, dropComments, if_neg hblank, if_neg hhash]

/-- What verbose mode passes over is the same before another rest. -/
theorem skip_takes (verbose : Bool) (cs : List Char) :
    ∃ used, cs = used ++ skip verbose cs ∧
      ∀ rest', Exchange used (skip verbose cs) rest' → skip verbose (used ++ rest') = rest' := by
  cases verbose with
  | false => exact ⟨[], rfl, fun _ _ => rfl⟩
  | true => exact dropComments_takes false cs

/-- The first character that verbose mode does not pass over is the same whatever comes later. -/
theorem skip_eq_cons {verbose : Bool} {after : List Char} (h : skip verbose cs = c :: after) :
    ∃ blanks, cs = blanks ++ c :: after ∧
      ∀ s, Alike after s → skip verbose (blanks ++ c :: s) = c :: s := by
  obtain ⟨blanks, hcs, htakes⟩ := skip_takes verbose cs
  rw [h] at hcs htakes
  exact ⟨blanks, hcs, fun s hs => htakes _ (.of_cons hs blanks c)⟩

/-! ## Characters by number and by name -/

section Digits

variable {verbose : Bool} {n digits acc : Nat} {number : Option Nat} {d : Char} {after : List Char}

/-- A number of hexadecimal digits. -/
theorem readHexDigits_takes (h : readHexDigits? verbose n acc cs = some (d, rest)) :
    ∃ used, cs = used ++ rest ∧ n ≤ used.length ∧ ∀ rest', Exchange used rest rest' →
      readHexDigits? verbose n acc (used ++ rest') = some (d, rest') := by
  induction n generalizing acc cs with
  | zero =>
    obtain ⟨d', hd, heq⟩ := Option.map_eq_some_iff.1 h
    obtain ⟨rfl, rfl⟩ := Prod.mk.inj heq
    refine ⟨[], rfl, Nat.le_refl 0, fun rest' _ => ?_⟩
    rw [List.nil_append, readHexDigits?, hd]
    rfl
  | succ n ih =>
    cases cs with
    | nil => cases h
    | cons c cs =>
      obtain ⟨value, hvalue, h⟩ := Option.bind_eq_some_iff.1 h
      obtain ⟨blanks, hcs, hskip⟩ := skip_takes verbose cs
      obtain ⟨used, hused, hlength, htakes⟩ := ih h
      rw [hused] at hcs hskip
      refine ⟨c :: (blanks ++ used), by rw [hcs]; simp, by simp; omega, fun rest' hrest => ?_⟩
      have hinner : Exchange (blanks ++ used) rest rest' := hrest.tail
      rw [List.cons_append, List.append_assoc, readHexDigits?, hvalue, Option.bind_eq_bind,
        Option.bind_some, hskip _ hinner.left]
      exact htakes rest' hinner.right

/-- A closing brace ends the digits. -/
theorem readHexBrace_close (h : skip verbose cs = '\x7d' :: after) :
    readHexBrace? verbose (n + 1) number cs = (number.bind Text.charOfNat?).map (·, after) := by
  rw [readHexBrace?, h]
  cases number with
  | none => rfl
  | some number =>
    show ((Text.charOfNat? number).bind fun c => some (c, after)) =
      (Text.charOfNat? number).map (·, after)
    cases Text.charOfNat? number <;> rfl

/-- Anything else must be a digit. -/
theorem readHexBrace_digit (h : skip verbose cs = c :: after) (hc : c ≠ '\x7d') :
    readHexBrace? verbose (n + 1) number cs =
      (Text.hexValue? c).bind fun d =>
        readHexBrace? verbose n (some (16 * number.getD 0 + d)) after := by
  rw [readHexBrace?, h]
  split
  · rename_i heq
    cases heq
  · rename_i heq
    exact absurd (List.cons.inj heq).1 hc
  · rename_i heq
    obtain ⟨rfl, rfl⟩ := List.cons.inj heq
    rfl

/-- Hexadecimal digits in braces. -/
theorem readHexBrace_takes (h : readHexBrace? verbose n number cs = some (d, rest)) :
    ∃ used, cs = used ++ rest ∧ ∀ rest' m, Alike rest rest' → used.length ≤ m →
      readHexBrace? verbose m number (used ++ rest') = some (d, rest') := by
  induction n generalizing number cs with
  | zero => cases h
  | succ n ih =>
    cases hs : skip verbose cs with
    | nil =>
      rw [readHexBrace?, hs] at h
      cases h
    | cons c after =>
      obtain ⟨blanks, rfl, hskip⟩ := skip_eq_cons hs
      by_cases hc : c = '\x7d'
      · subst hc
        rw [readHexBrace_close hs] at h
        obtain ⟨d', hd, heq⟩ := Option.map_eq_some_iff.1 h
        obtain ⟨rfl, rfl⟩ := Prod.mk.inj heq
        refine ⟨blanks ++ ['\x7d'], by simp, fun rest' m hrest hm => ?_⟩
        obtain ⟨m, rfl⟩ : ∃ k, m = k + 1 := ⟨m - 1, by simp at hm; omega⟩
        rw [List.append_assoc, List.singleton_append, readHexBrace_close (hskip _ hrest), hd]
        rfl
      · rw [readHexBrace_digit hs hc] at h
        obtain ⟨value, hvalue, h⟩ := Option.bind_eq_some_iff.1 h
        obtain ⟨used, rfl, htakes⟩ := ih h
        refine ⟨blanks ++ c :: used, by simp, fun rest' m hrest hm => ?_⟩
        obtain ⟨m, rfl⟩ : ∃ k, m = k + 1 := ⟨m - 1, by simp at hm; omega⟩
        rw [List.append_assoc, List.cons_append,
          readHexBrace_digit (hskip _ (hrest.append used)) hc, hvalue]
        exact htakes rest' m hrest (by simp at hm; omega)

/-- Behind an opening brace stand digits in braces. -/
theorem readHex_brace (h : skip verbose cs = '\x7b' :: after) :
    readHex? verbose digits cs =
      (readHexBrace? verbose (after.length + 1) none after).map
        fun x => (⟨x.1, false⟩, x.2) := by
  rw [readHex?, h]
  show ((readHexBrace? verbose (after.length + 1) none after).bind fun x =>
    some ((⟨x.1, false⟩ : Literal), x.2)) = _
  cases readHexBrace? verbose (after.length + 1) none after <;> rfl

/-- Anything else must be the digits themselves. -/
theorem readHex_digits (h : skip verbose cs = c :: after) (hc : c ≠ '\x7b') :
    readHex? verbose digits cs =
      (readHexDigits? verbose digits 0 (c :: after)).map
        fun x => (⟨x.1, digits == 2⟩, x.2) := by
  rw [readHex?, h]
  split
  · rename_i heq
    cases heq
  · rename_i heq
    exact absurd (List.cons.inj heq).1 hc
  · cases readHexDigits? verbose digits 0 (c :: after) <;> rfl

/-- A character by its number. -/
theorem readHex_takes {l : Literal} (hdigits : digits ≠ 0)
    (h : readHex? verbose digits cs = some (l, rest)) :
    ∃ used, cs = used ++ rest ∧ ∀ rest', Exchange used rest rest' →
      readHex? verbose digits (used ++ rest') = some (l, rest') := by
  cases hs : skip verbose cs with
  | nil =>
    rw [readHex?, hs] at h
    cases h
  | cons c after =>
    obtain ⟨blanks, rfl, hskip⟩ := skip_eq_cons hs
    by_cases hc : c = '\x7b'
    · subst hc
      rw [readHex_brace hs] at h
      obtain ⟨⟨d, rest₁⟩, hd, heq⟩ := Option.map_eq_some_iff.1 h
      obtain ⟨rfl, rfl⟩ := Prod.mk.inj heq
      obtain ⟨used, rfl, htakes⟩ := readHexBrace_takes hd
      refine ⟨blanks ++ '\x7b' :: used, by simp, fun rest' hrest => ?_⟩
      rw [List.append_assoc, List.cons_append,
        readHex_brace (hskip _ (hrest.alike.append used)),
        htakes rest' _ hrest.alike (by simp; omega)]
      rfl
    · rw [readHex_digits hs hc] at h
      obtain ⟨⟨d, rest₁⟩, hd, heq⟩ := Option.map_eq_some_iff.1 h
      obtain ⟨rfl, rfl⟩ := Prod.mk.inj heq
      obtain ⟨used, hused, hlength, htakes⟩ := readHexDigits_takes hd
      cases used with
      | nil => exact absurd (Nat.le_zero.1 hlength) hdigits
      | cons c' used =>
        obtain ⟨rfl, rfl⟩ := List.cons.inj hused
        refine ⟨blanks ++ c :: used, by simp, fun rest' hrest => ?_⟩
        rw [List.append_assoc, List.cons_append,
          readHex_digits (hskip _ (hrest.alike.append used)) hc]
        have hinner := htakes rest' hrest.right
        rw [List.cons_append] at hinner
        rw [hinner]
        rfl

end Digits

section Names

variable {verbose negated : Bool} {n m : Nat} {name after : List Char} {a : Atom}

/-- A closing brace ends a name. -/
theorem readBraced_close (h : skip verbose cs = '\x7d' :: after) :
    readBraced? verbose (n + 1) cs = some ([], after) := by
  rw [readBraced?, h]
  rfl

/-- Any other character belongs to the name. -/
theorem readBraced_cons (h : skip verbose cs = c :: after) (hc : c ≠ '\x7d') :
    readBraced? verbose (n + 1) cs =
      (readBraced? verbose n after).map fun x => (c :: x.1, x.2) := by
  rw [readBraced?, h]
  split
  · rename_i heq
    cases heq
  · rename_i heq
    exact absurd (List.cons.inj heq).1 hc
  · rename_i heq
    obtain ⟨rfl, rfl⟩ := List.cons.inj heq
    cases readBraced? verbose n after <;> rfl

/-- A name in braces. -/
theorem readBraced_takes (h : readBraced? verbose n cs = some (name, rest)) :
    ∃ used, cs = used ++ rest ∧ ∀ rest' m, Alike rest rest' → used.length ≤ m →
      readBraced? verbose m (used ++ rest') = some (name, rest') := by
  induction n generalizing cs name with
  | zero => cases h
  | succ n ih =>
    cases hs : skip verbose cs with
    | nil =>
      rw [readBraced?, hs] at h
      cases h
    | cons c after =>
      obtain ⟨blanks, rfl, hskip⟩ := skip_eq_cons hs
      by_cases hc : c = '\x7d'
      · subst hc
        rw [readBraced_close hs] at h
        obtain ⟨rfl, rfl⟩ := Prod.mk.inj (Option.some.inj h)
        refine ⟨blanks ++ ['\x7d'], by simp, fun rest' m hrest hm => ?_⟩
        obtain ⟨m, rfl⟩ : ∃ k, m = k + 1 := ⟨m - 1, by simp at hm; omega⟩
        rw [List.append_assoc, List.singleton_append, readBraced_close (hskip _ hrest)]
      · rw [readBraced_cons hs hc] at h
        obtain ⟨⟨name', rest₁⟩, hname, heq⟩ := Option.map_eq_some_iff.1 h
        obtain ⟨rfl, rfl⟩ := Prod.mk.inj heq
        obtain ⟨used, rfl, htakes⟩ := ih hname
        refine ⟨blanks ++ c :: used, by simp, fun rest' m hrest hm => ?_⟩
        obtain ⟨m, rfl⟩ : ∃ k, m = k + 1 := ⟨m - 1, by simp at hm; omega⟩
        rw [List.append_assoc, List.cons_append,
          readBraced_cons (hskip _ (hrest.append used)) hc,
          htakes rest' m hrest (by simp at hm; omega)]
        rfl

/-- The class of a name in braces. -/
theorem readNamed_brace (h : skip verbose cs = '\x7b' :: after) :
    readNamed? verbose negated cs =
      (readBraced? verbose (after.length + 1) after).map fun x =>
        (.named (NamedClass.ofBraced x.1).1 (negated != (NamedClass.ofBraced x.1).2), x.2) := by
  rw [readNamed?, h]
  show ((readBraced? verbose (after.length + 1) after).bind fun x =>
    some (Atom.named (NamedClass.ofBraced x.1).1 (negated != (NamedClass.ofBraced x.1).2), x.2)) = _
  cases readBraced? verbose (after.length + 1) after <;> rfl

/-- The class of a name of one letter. -/
theorem readNamed_letter (h : skip verbose cs = c :: after) (hc : c ≠ '\x7b') :
    readNamed? verbose negated cs =
      if c = '\\' then none else some (.named ⟨[c], none⟩ negated, after) := by
  rw [readNamed?, h]
  split
  · rename_i heq
    cases heq
  · rename_i heq
    exact absurd (List.cons.inj heq).1 hc
  · rename_i heq
    obtain ⟨rfl, rfl⟩ := List.cons.inj heq
    rfl

/-- A named class. -/
theorem readNamed_takes (h : readNamed? verbose negated cs = some (a, rest)) :
    ∃ used, cs = used ++ rest ∧ ∀ rest', Alike rest rest' →
      readNamed? verbose negated (used ++ rest') = some (a, rest') := by
  cases hs : skip verbose cs with
  | nil =>
    rw [readNamed?, hs] at h
    cases h
  | cons c after =>
    obtain ⟨blanks, rfl, hskip⟩ := skip_eq_cons hs
    by_cases hc : c = '\x7b'
    · subst hc
      rw [readNamed_brace hs] at h
      obtain ⟨⟨name, rest₁⟩, hname, heq⟩ := Option.map_eq_some_iff.1 h
      obtain ⟨rfl, rfl⟩ := Prod.mk.inj heq
      obtain ⟨used, rfl, htakes⟩ := readBraced_takes hname
      refine ⟨blanks ++ '\x7b' :: used, by simp, fun rest' hrest => ?_⟩
      rw [List.append_assoc, List.cons_append, readNamed_brace (hskip _ (hrest.append used)),
        htakes rest' _ hrest (by simp; omega)]
      rfl
    · rw [readNamed_letter hs hc] at h
      split at h
      · cases h
      · rename_i hslash
        obtain ⟨rfl, rfl⟩ := Prod.mk.inj (Option.some.inj h)
        refine ⟨blanks ++ [c], by simp, fun rest' hrest => ?_⟩
        rw [List.append_assoc, List.singleton_append, readNamed_letter (hskip _ hrest) hc,
          if_neg hslash]

/-- Letters are taken up to something else. -/
theorem readLetters_takes (hn : cs.length ≤ n) (h : readLetters verbose n cs = (name, rest)) :
    ∃ used, cs = used ++ rest ∧ ∀ rest' m, Exchange used rest rest' →
      (used ++ rest').length ≤ m → readLetters verbose m (used ++ rest') = (name, rest') := by
  -- Before the end or a parenthesis there is nothing to take.
  have hnil (rest' : List Char) (m : Nat) (hrest : Alike [] rest') :
      readLetters verbose m rest' = ([], rest') := by
    cases hrest.tail_of_nil <;> cases m <;> rfl
  induction n generalizing cs name with
  | zero =>
    obtain rfl := List.eq_nil_of_length_eq_zero (Nat.le_zero.1 hn)
    obtain ⟨rfl, rfl⟩ := Prod.mk.inj h
    exact ⟨[], rfl, fun rest' m hrest _ => hnil rest' m hrest.alike⟩
  | succ n ih =>
    cases cs with
    | nil =>
      obtain ⟨rfl, rfl⟩ := Prod.mk.inj h
      exact ⟨[], rfl, fun rest' m hrest _ => hnil rest' m hrest.alike⟩
    | cons c cs =>
      rw [readLetters] at h
      by_cases hc : (c.isAlpha || c == '-') = true
      · rw [if_pos hc] at h
        obtain ⟨blanks, hcs, hskip⟩ := skip_takes verbose cs
        have hlength : (skip verbose cs).length ≤ n := by
          have hle := congrArg List.length hcs
          simp at hle hn
          omega
        rcases hinner : readLetters verbose n (skip verbose cs) with ⟨letters, rest₁⟩
        rw [hinner] at h
        obtain ⟨rfl, rfl⟩ := Prod.mk.inj h
        obtain ⟨used, hused, htakes⟩ := ih hlength hinner
        rw [hused] at hcs hskip
        refine ⟨c :: (blanks ++ used), by rw [hcs]; simp, fun rest' m hrest hm => ?_⟩
        obtain ⟨m, rfl⟩ : ∃ k, m = k + 1 := ⟨m - 1, by simp at hm; omega⟩
        have hinner : Exchange (blanks ++ used) rest₁ rest' := hrest.tail
        rw [List.cons_append, List.append_assoc, readLetters, if_pos hc, hskip _ hinner.left,
          htakes rest' m hinner.right (by simp at hm ⊢; omega)]
      · rw [if_neg hc] at h
        obtain ⟨rfl, rfl⟩ := Prod.mk.inj h
        refine ⟨[], rfl, fun rest' m hrest hm => ?_⟩
        rcases hrest.alike.head with ⟨rfl, -⟩ | ⟨z, rfl⟩
        · exact hnil [] m (.tail .nil .nil)
        · cases m with
          | zero => rfl
          | succ m => rw [List.nil_append, readLetters, if_neg hc]

end Names

/-! ## Escapes -/

section Escapes

variable {verbose : Bool} {a : Atom} {after : List Char}

/-- What stands at the front is no brace with a letter behind it: a word boundary is complete before
it. -/
def Counting (verbose : Bool) (rest : List Char) : Prop :=
  ∀ inner, rest = '\x7b' :: inner →
    ∃ c after, skip verbose inner = c :: after ∧ (c.isAlpha || c == '-') = false

/-- A word boundary is complete. -/
theorem readBoundary_counting (h : Counting verbose cs) :
    readBoundary? verbose cs = some (.wordBoundary, cs) := by
  unfold readBoundary?
  split
  · obtain ⟨c, after, hskip, hc⟩ := h _ rfl
    rw [hskip]
    dsimp only
    rw [if_neg (Bool.not_eq_true _ ▸ hc)]
  · rfl

/-- What follows the letter of a word boundary. -/
theorem readBoundary_takes {b : Assertion} (h : readBoundary? verbose cs = some (b, rest)) :
    ∃ used, cs = used ++ rest ∧ ∀ rest', Alike rest rest' →
      (b = .wordBoundary → Counting verbose rest') →
      readBoundary? verbose (used ++ rest') = some (b, rest') := by
  by_cases hplain : b = .wordBoundary ∧ rest = cs
  · obtain ⟨rfl, rfl⟩ := hplain
    exact ⟨[], rfl, fun rest' _ hrest' => readBoundary_counting (hrest' rfl)⟩
  · -- The boundary is a special one.
    unfold readBoundary? at h
    split at h
    · rename_i inner
      split at h
      · cases h
      · rename_i c after hafter
        obtain ⟨blanks, rfl, hskip⟩ := skip_eq_cons hafter
        split at h
        · rename_i hc
          split at h
          · rename_i name rest₁ hletters
            obtain ⟨b', hb, heq⟩ := Option.map_eq_some_iff.1 h
            obtain ⟨rfl, rfl⟩ := Prod.mk.inj heq
            obtain ⟨used, hused, htakes⟩ := readLetters_takes (by simp) hletters
            cases used with
            | nil =>
              obtain ⟨rfl, -⟩ := List.cons.inj hused
              exact absurd hc (by decide)
            | cons c' used =>
              obtain ⟨rfl, rfl⟩ := List.cons.inj hused
              refine ⟨'\x7b' :: (blanks ++ c :: (used ++ ['\x7d'])), by simp,
                fun rest' hrest _ => ?_⟩
              have hname := htakes ('\x7d' :: rest') _ (.of_cons hrest _ _) (Nat.le_refl _)
              have htext : '\x7b' :: (blanks ++ c :: (used ++ ['\x7d'])) ++ rest' =
                  '\x7b' :: (blanks ++ c :: (used ++ '\x7d' :: rest')) := by simp
              rw [htext, readBoundary?, hskip _ ((hrest.cons _).append used)]
              dsimp only
              rw [if_pos hc]
              rw [List.cons_append, List.length_cons] at hname
              rw [hname]
              show (boundaryByName? name).map (·, rest') = some (b', rest')
              rw [hb]
              rfl
          · cases h
        · obtain ⟨rfl, rfl⟩ := Prod.mk.inj (Option.some.inj h)
          exact absurd ⟨rfl, rfl⟩ hplain
    · obtain ⟨rfl, rfl⟩ := Prod.mk.inj (Option.some.inj h)
      exact absurd ⟨rfl, rfl⟩ hplain

/-- The letters of the escapes that go on behind their letter. -/
def goesOn : List Char :=
  ['x', 'u', 'U', 'p', 'P', 'b']

/-- Any other escape is one character. -/
theorem readEscape_single (hc : c ∉ goesOn) :
    readEscape? verbose (c :: cs) = (readEscape? verbose [c]).map fun x => (x.1, cs) := by
  rw [readEscape?, readEscape?]
  by_cases hdigit : c.isDigit = true
  · rw [if_pos hdigit, if_pos hdigit]
    rfl
  · rw [if_neg hdigit, if_neg hdigit]
    by_cases hescapable : isEscapable c = true
    · rw [if_pos hescapable, if_pos hescapable]
      rfl
    · rw [if_neg hescapable, if_neg hescapable]
      dsimp only
      split <;> first
        | rfl
        | exact absurd (by decide) hc

/-- An escape. -/
theorem readEscape_takes (h : readEscape? verbose cs = some (a, rest)) :
    ∃ used, cs = used ++ rest ∧ ∀ rest', Exchange used rest rest' →
      (a = .assertion .wordBoundary → Counting verbose rest') →
      readEscape? verbose (used ++ rest') = some (a, rest') := by
  cases cs with
  | nil => cases h
  | cons c cs =>
    by_cases hc : c ∈ goesOn
    · -- The letter stays, and what goes on behind it has its own lemma.
      have hhex (digits : Nat) (hdigits : digits ≠ 0)
          (heq : ∀ cs, readEscape? verbose (c :: cs) =
            (readHex? verbose digits cs).map fun x => (.literal x.1, x.2)) :
          ∃ used, c :: cs = used ++ rest ∧ ∀ rest', Exchange used rest rest' →
            (a = .assertion .wordBoundary → Counting verbose rest') →
            readEscape? verbose (used ++ rest') = some (a, rest') := by
        rw [heq] at h
        obtain ⟨⟨l, rest₁⟩, hl, hres⟩ := Option.map_eq_some_iff.1 h
        obtain ⟨rfl, rfl⟩ := Prod.mk.inj hres
        obtain ⟨used, rfl, htakes⟩ := readHex_takes hdigits hl
        refine ⟨c :: used, rfl, fun rest' hrest _ => ?_⟩
        rw [List.cons_append, heq, htakes rest' hrest.tail]
        rfl
      have hnamed (negated : Bool)
          (heq : ∀ cs, readEscape? verbose (c :: cs) = readNamed? verbose negated cs) :
          ∃ used, c :: cs = used ++ rest ∧ ∀ rest', Exchange used rest rest' →
            (a = .assertion .wordBoundary → Counting verbose rest') →
            readEscape? verbose (used ++ rest') = some (a, rest') := by
        rw [heq] at h
        obtain ⟨used, rfl, htakes⟩ := readNamed_takes h
        refine ⟨c :: used, rfl, fun rest' hrest _ => ?_⟩
        rw [List.cons_append, heq, htakes rest' hrest.alike]
      simp only [goesOn, List.mem_cons, List.not_mem_nil, or_false] at hc
      rcases hc with rfl | rfl | rfl | rfl | rfl | rfl
      · exact hhex 2 (by decide) fun cs => rfl
      · exact hhex 4 (by decide) fun cs => rfl
      · exact hhex 8 (by decide) fun cs => rfl
      · exact hnamed false fun cs => rfl
      · exact hnamed true fun cs => rfl
      · obtain ⟨⟨b, rest₁⟩, hb, hres⟩ := Option.map_eq_some_iff.1 h
        obtain ⟨rfl, rfl⟩ := Prod.mk.inj hres
        obtain ⟨used, rfl, htakes⟩ := readBoundary_takes hb
        refine ⟨'b' :: used, rfl, fun rest' hrest hcounting => ?_⟩
        have hbound := htakes rest' hrest.alike fun hword => hcounting (hword ▸ rfl)
        show (readBoundary? verbose (used ++ rest')).map _ = _
        rw [hbound]
        rfl
    · rw [readEscape_single hc] at h
      obtain ⟨⟨a', none'⟩, ha, hres⟩ := Option.map_eq_some_iff.1 h
      obtain ⟨rfl, rfl⟩ := Prod.mk.inj hres
      refine ⟨[c], rfl, fun rest' _ _ => ?_⟩
      rw [List.singleton_append, readEscape_single hc, ha]
      rfl

/-- What may be an end of a range inside a class. -/
theorem readSetAtom_takes (h : readSetAtom? verbose cs = some (a, rest)) :
    ∃ used, used ≠ [] ∧ cs = used ++ rest ∧ ∀ rest', Exchange used rest rest' →
      (a = .assertion .wordBoundary → Counting verbose rest') →
      readSetAtom? verbose (used ++ rest') = some (a, rest') := by
  cases cs with
  | nil => cases h
  | cons c cs =>
    rw [readSetAtom?] at h
    by_cases hc : c = '\\'
    · rw [if_pos hc] at h
      obtain ⟨used, rfl, htakes⟩ := readEscape_takes h
      refine ⟨c :: used, List.cons_ne_nil _ _, rfl, fun rest' hrest hcounting => ?_⟩
      rw [List.cons_append, readSetAtom?, if_pos hc]
      exact htakes rest' hrest.tail hcounting
    · rw [if_neg hc] at h
      obtain ⟨rfl, rfl⟩ := Prod.mk.inj (Option.some.inj h)
      refine ⟨[c], List.cons_ne_nil _ _, rfl, fun rest' _ _ => ?_⟩
      rw [List.singleton_append, readSetAtom?, if_neg hc]

/-- A part that is neither a group nor a class nor a repetition. -/
theorem readPrimitive_takes {p : Pattern} (h : readPrimitive? verbose cs = some (p, rest)) :
    ∃ used, used ≠ [] ∧ cs = used ++ rest ∧ ∀ rest', Exchange used rest rest' →
      (p = .assertion .wordBoundary → Counting verbose rest') →
      readPrimitive? verbose (used ++ rest') = some (p, rest') := by
  unfold readPrimitive? at h
  split at h
  · cases h
  · obtain ⟨rfl, rfl⟩ := Prod.mk.inj (Option.some.inj h)
    exact ⟨['.'], List.cons_ne_nil _ _, rfl, fun _ _ _ => rfl⟩
  · obtain ⟨rfl, rfl⟩ := Prod.mk.inj (Option.some.inj h)
    exact ⟨['^'], List.cons_ne_nil _ _, rfl, fun _ _ _ => rfl⟩
  · obtain ⟨rfl, rfl⟩ := Prod.mk.inj (Option.some.inj h)
    exact ⟨['$'], List.cons_ne_nil _ _, rfl, fun _ _ _ => rfl⟩
  · obtain ⟨⟨a, rest₁⟩, ha, hres⟩ := Option.map_eq_some_iff.1 h
    obtain ⟨rfl, rfl⟩ := Prod.mk.inj hres
    obtain ⟨used, rfl, htakes⟩ := readEscape_takes ha
    refine ⟨'\\' :: used, List.cons_ne_nil _ _, rfl, fun rest' hrest hcounting => ?_⟩
    have hescape := htakes rest' hrest.tail fun hword =>
      hcounting (hword ▸ rfl)
    show (readEscape? verbose (used ++ rest')).map _ = _
    rw [hescape]
    rfl
  · rename_i c cs hdot hcaret hdollar hslash
    obtain ⟨rfl, rfl⟩ := Prod.mk.inj (Option.some.inj h)
    refine ⟨[c], List.cons_ne_nil _ _, rfl, fun rest' _ _ => ?_⟩
    simp [readPrimitive?]

end Escapes

end Pattern

end TraceGen
