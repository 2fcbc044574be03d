import Mathlib.Data.List.TakeWhile
import TraceGen.Proofs.Pattern.Classes

/-!
# What a body depends on

`readBody_takes` is about a body that was read before a tail: before any other tail the same is
read. There is the one exception that comments make (`Exchange`). So a body is read from a text of
its own in the same way as from a longer text, in which a closing parenthesis stands behind it.
-/

namespace TraceGen

namespace Pattern

variable {verbose : Bool} {n m : Nat} {s s' used rest rest' cs after : List Char} {c : Char}

/-! ## Counts -/

/-- Blanks are dropped up to the same place. -/
theorem dropBlanks_takes (cs : List Char) :
    ∃ used, cs = used ++ cs.dropWhile Text.isBlank ∧
      ∀ rest', Alike (cs.dropWhile Text.isBlank) rest' →
        (used ++ rest').dropWhile Text.isBlank = rest' := by
  induction cs with
  | nil =>
    refine ⟨[], rfl, fun rest' hrest => ?_⟩
    cases hrest.tail_of_nil <;> rfl
  | cons c cs ih =>
    obtain ⟨used, hcs, htakes⟩ := ih
    rw [List.dropWhile_cons]
    by_cases hblank : Text.isBlank c = true
    · rw [if_pos hblank]
      refine ⟨c :: used, congrArg (c :: ·) hcs, fun rest' hrest => ?_⟩
      rw [List.cons_append, List.dropWhile_cons, if_pos hblank]
      exact htakes rest' hrest
    · rw [if_neg hblank]
      refine ⟨[], rfl, fun rest' hrest => ?_⟩
      rcases hrest.head with ⟨rfl, -⟩ | ⟨z, rfl⟩
      · rfl
      · rw [List.nil_append, List.dropWhile_cons, if_neg hblank]

/-- Without a digit in front there are no digits, and what is passed over is passed over. -/
theorem readDecimalDigits_nil (h : ∀ c ∈ cs.head?, c.isDigit = false) :
    readDecimalDigits verbose (n + 1) cs =
      ([], skip verbose (cs.dropWhile Text.isBlank)) := by
  cases cs with
  | nil => cases verbose <;> rfl
  | cons c cs =>
    rw [readDecimalDigits, if_neg]
    rw [h c rfl]
    exact Bool.false_ne_true

/-- Decimal digits. -/
theorem readDecimalDigits_takes {ds : List Char} (hn : cs.length < n)
    (h : readDecimalDigits verbose n cs = (ds, rest)) :
    ∃ used, cs = used ++ rest ∧ ∀ rest' m, Exchange used rest rest' →
      (used ++ rest').length < m → readDecimalDigits verbose m (used ++ rest') = (ds, rest') := by
  induction n generalizing cs ds with
  | zero => cases hn
  | succ n ih =>
    by_cases hdigit : ∃ c z, cs = c :: z ∧ c.isDigit = true
    · obtain ⟨c, cs, rfl, hc⟩ := hdigit
      rw [readDecimalDigits, if_pos hc] at h
      obtain ⟨blanks, hcs, hskip⟩ := skip_takes verbose cs
      have hlength : (skip verbose cs).length < n := by
        have hle := congrArg List.length hcs
        simp at hle hn
        omega
      rcases hinner : readDecimalDigits verbose n (skip verbose cs) with ⟨ds', rest₁⟩
      rw [hinner] at h
      obtain ⟨rfl, rfl⟩ := Prod.mk.inj h
      obtain ⟨used, hused, htakes⟩ := ih hlength hinner
      rw [hused] at hcs hskip
      refine ⟨c :: (blanks ++ used), by rw [hcs]; simp, fun rest' m hrest hm => ?_⟩
      obtain ⟨m, rfl⟩ : ∃ k, m = k + 1 := ⟨m - 1, by omega⟩
      have hrest₁ : Exchange (blanks ++ used) rest₁ rest' := hrest.tail
      rw [List.cons_append, List.append_assoc, readDecimalDigits, if_pos hc,
        hskip _ hrest₁.left, htakes rest' m hrest₁.right (by simp at hm ⊢; omega)]
    · have hnone : ∀ c ∈ cs.head?, c.isDigit = false := by
        intro c hc
        obtain ⟨z, rfl⟩ := List.head?_eq_some_iff.1 hc
        exact Bool.not_eq_true _ ▸ fun hdig => hdigit ⟨c, z, rfl, hdig⟩
      rw [readDecimalDigits_nil hnone] at h
      obtain ⟨rfl, rfl⟩ := Prod.mk.inj h
      obtain ⟨blanks₁, hcs₁, hdrop⟩ := dropBlanks_takes cs
      obtain ⟨blanks₂, hcs₂, hskip⟩ := skip_takes verbose (cs.dropWhile Text.isBlank)
      refine ⟨blanks₁ ++ blanks₂, by rw [List.append_assoc, ← hcs₂, ← hcs₁],
        fun rest' m hrest hm => ?_⟩
      obtain ⟨m, rfl⟩ : ∃ k, m = k + 1 := ⟨m - 1, by omega⟩
      have hlike₂ : Alike (cs.dropWhile Text.isBlank) (blanks₂ ++ rest') := by
        rw [hcs₂]
        exact hrest.alike.append blanks₂
      have hlike₁ : Alike cs (blanks₁ ++ (blanks₂ ++ rest')) := by
        rw [hcs₁]
        exact hlike₂.append blanks₁
      have hnone' : ∀ c ∈ (blanks₁ ++ (blanks₂ ++ rest')).head?, c.isDigit = false := by
        intro c hc
        obtain ⟨z, hz⟩ := List.head?_eq_some_iff.1 hc
        rw [hz] at hlike₁
        rcases hlike₁.symm.head with ⟨-, rfl⟩ | ⟨z', rfl⟩
        · decide
        · exact hnone c rfl
      rw [List.append_assoc, readDecimalDigits_nil hnone', hdrop _ hlike₂,
        hskip _ hrest.right]

/-- A decimal number, if one stands there. -/
theorem readDecimal_takes {least : Option (Option Nat)}
    (h : readDecimal verbose cs = (least, rest)) :
    ∃ used, cs = used ++ rest ∧ ∀ rest', Exchange used rest rest' →
      readDecimal verbose (used ++ rest') = (least, rest') := by
  unfold readDecimal at h
  rcases hdigits : readDecimalDigits verbose (cs.length + 1) (cs.dropWhile Text.isBlank) with
    ⟨ds, rest₁⟩
  obtain ⟨blanks, hcs, hdrop⟩ := dropBlanks_takes cs
  have hlength : (cs.dropWhile Text.isBlank).length < cs.length + 1 := by
    have hle := congrArg List.length hcs
    rw [List.length_append] at hle
    omega
  obtain ⟨used, hused, htakes⟩ := readDecimalDigits_takes hlength hdigits
  rw [hused] at hcs hdrop
  have hrest₁ : rest₁ = rest := by
    rw [hdigits] at h
    cases ds <;> exact (Prod.mk.inj h).2
  subst hrest₁
  refine ⟨blanks ++ used, by rw [List.append_assoc, ← hcs], fun rest' hrest => ?_⟩
  have hfuel : (used ++ rest').length < (blanks ++ (used ++ rest')).length + 1 := by
    simp only [List.length_append]
    omega
  unfold readDecimal
  rw [List.append_assoc, hdrop _ hrest.left.alike, htakes rest' _ hrest.right hfuel]
  rw [hdigits] at h
  cases ds with
  | nil => rw [← (Prod.mk.inj h).1]
  | cons d ds => rw [← (Prod.mk.inj h).1]

/-- Where no blank and no digit stands there is no number. -/
theorem readDecimal_none (hblank : Text.isBlank c = false) (hdigit : c.isDigit = false) :
    (readDecimal verbose (c :: cs)).1 = none := by
  unfold readDecimal
  rw [List.dropWhile_cons, hblank]
  dsimp only
  rw [List.length_cons, readDecimalDigits_nil]
  intro d hd
  obtain rfl := Option.some.inj hd
  exact hdigit

variable {least most : Option (Option Nat)} {counts : Nat × Option Nat}

/-- One number is both bounds. -/
theorem readCounts_exact (h : readDecimal verbose (skip verbose cs) = (least, '\x7d' :: rest)) :
    readCounts? verbose cs = least.join.map fun k => ((k, some k), rest) := by
  unfold readCounts?
  rw [h]
  rcases least with _ | _ | k <;> rfl

/-- A comma without a number behind it leaves the upper bound open. -/
theorem readCounts_open (h : readDecimal verbose (skip verbose cs) = (least, ',' :: after))
    (hskip : skip verbose after = '\x7d' :: rest) :
    readCounts? verbose cs = least.join.map fun k => ((k, none), rest) := by
  simp only [readCounts?, h, hskip]
  rcases least with _ | _ | k <;> rfl

/-- Two numbers are the bounds. -/
theorem readCounts_between {d : Char} {z : List Char}
    (h : readDecimal verbose (skip verbose cs) = (least, ',' :: after))
    (hskip : skip verbose after = d :: z) (hd : d ≠ '\x7d')
    (hmost : readDecimal verbose (d :: z) = (most, '\x7d' :: rest)) :
    readCounts? verbose cs = least.join.bind fun low => most.join.bind fun high =>
      if low ≤ high then some ((low, some high), rest) else none := by
  simp only [readCounts?, h, hskip]
  split
  · rename_i heq
    exact absurd (List.cons.inj heq).1 hd
  · rw [hmost]
    rcases least with _ | _ | low <;> rcases most with _ | _ | high <;> rfl

/-- The three forms of counts. -/
theorem readCounts_cases (h : readCounts? verbose cs = some (counts, rest)) :
    (∃ least, readDecimal verbose (skip verbose cs) = (least, '\x7d' :: rest)) ∨
    ∃ least after, readDecimal verbose (skip verbose cs) = (least, ',' :: after) ∧
      (skip verbose after = '\x7d' :: rest ∨ ∃ d z most, skip verbose after = d :: z ∧
        d ≠ '\x7d' ∧ readDecimal verbose (d :: z) = (most, '\x7d' :: rest)) := by
  unfold readCounts? at h
  rcases hleast : readDecimal verbose (skip verbose cs) with ⟨least, rest₁⟩
  rw [hleast] at h
  dsimp only at h
  split at h
  · rename_i after
    refine .inr ⟨least, after, rfl, ?_⟩
    split at h
    · rename_i rest₂ hskip
      obtain ⟨_, -, h⟩ := Option.bind_eq_some_iff.1 h
      obtain ⟨_, -, h⟩ := Option.bind_eq_some_iff.1 h
      obtain ⟨-, rfl⟩ := Prod.mk.inj (Option.some.inj h)
      exact .inl hskip
    · rename_i hother
      obtain ⟨_, -, h⟩ := Option.bind_eq_some_iff.1 h
      obtain ⟨_, -, h⟩ := Option.bind_eq_some_iff.1 h
      obtain ⟨_, -, h⟩ := Option.bind_eq_some_iff.1 h
      obtain ⟨_, -, h⟩ := Option.bind_eq_some_iff.1 h
      split at h
      · rename_i rest₂ hmost
        split at h
        · obtain ⟨-, rfl⟩ := Prod.mk.inj (Option.some.inj h)
          cases hskip : skip verbose after with
          | nil =>
            rw [hskip] at hmost
            cases hmost
          | cons d z =>
            rw [hskip] at hmost hother
            exact .inr ⟨d, z, _, rfl, fun hd => hother z (hd ▸ rfl), Prod.ext rfl hmost⟩
        · cases h
      · cases h
  · rename_i rest₂
    obtain ⟨_, -, h⟩ := Option.bind_eq_some_iff.1 h
    obtain ⟨_, -, h⟩ := Option.bind_eq_some_iff.1 h
    obtain ⟨-, rfl⟩ := Prod.mk.inj (Option.some.inj h)
    exact .inl ⟨least, rfl⟩
  · cases h

/-- The bounds of a counted repetition. -/
theorem readCounts_takes (h : readCounts? verbose cs = some (counts, rest)) :
    ∃ used, cs = used ++ rest ∧ ∀ rest', Alike rest rest' →
      readCounts? verbose (used ++ rest') = some (counts, rest') := by
  obtain ⟨blanks₁, hcs, hskip₁⟩ := skip_takes verbose cs
  rcases readCounts_cases h with ⟨least, hleast⟩ | ⟨least, after, hleast, hmore⟩
  · rw [readCounts_exact hleast] at h
    obtain ⟨k, hk, heq⟩ := Option.map_eq_some_iff.1 h
    obtain ⟨rfl, -⟩ := Prod.mk.inj heq
    obtain ⟨used, hused, htakes⟩ := readDecimal_takes hleast
    rw [hused] at hcs hskip₁
    refine ⟨blanks₁ ++ (used ++ ['\x7d']), by rw [hcs]; simp, fun rest' hrest => ?_⟩
    have hbrace := Exchange.of_cons hrest (blanks₁ ++ used) '\x7d'
    have htext : blanks₁ ++ (used ++ ['\x7d']) ++ rest' =
        blanks₁ ++ (used ++ '\x7d' :: rest') := by simp
    have hleast' := htakes _ hbrace.right
    rw [← hskip₁ _ hbrace.left] at hleast'
    rw [htext, readCounts_exact hleast', hk]
    rfl
  · obtain ⟨used₁, hused₁, htakes₁⟩ := readDecimal_takes hleast
    rw [hused₁] at hcs hskip₁
    -- What comes behind the comma can be exchanged for anything alike.
    have hleast' {after' : List Char} (hlike : Alike after after') :
        readDecimal verbose (skip verbose (blanks₁ ++ (used₁ ++ ',' :: after'))) =
          (least, ',' :: after') := by
      have hcomma := Exchange.of_cons hlike (blanks₁ ++ used₁) ','
      rw [hskip₁ _ hcomma.left]
      exact htakes₁ _ hcomma.right
    rcases hmore with hskip | ⟨d, z, most, hskip, hd, hmost⟩
    · rw [readCounts_open hleast hskip] at h
      obtain ⟨k, hk, heq⟩ := Option.map_eq_some_iff.1 h
      obtain ⟨rfl, -⟩ := Prod.mk.inj heq
      obtain ⟨blanks₂, rfl, hskip₂⟩ := skip_eq_cons hskip
      refine ⟨blanks₁ ++ (used₁ ++ ',' :: (blanks₂ ++ ['\x7d'])), by rw [hcs]; simp,
        fun rest' hrest => ?_⟩
      have htext : blanks₁ ++ (used₁ ++ ',' :: (blanks₂ ++ ['\x7d'])) ++ rest' =
          blanks₁ ++ (used₁ ++ ',' :: (blanks₂ ++ '\x7d' :: rest')) := by simp
      rw [htext, readCounts_open (hleast' ((hrest.cons _).append blanks₂)) (hskip₂ _ hrest), hk]
      rfl
    · rw [readCounts_between hleast hskip hd hmost] at h
      obtain ⟨low, hlow, h⟩ := Option.bind_eq_some_iff.1 h
      obtain ⟨high, hhigh, h⟩ := Option.bind_eq_some_iff.1 h
      obtain ⟨blanks₂, rfl, hskip₂⟩ := skip_eq_cons hskip
      obtain ⟨used₂, hused₂, htakes₂⟩ := readDecimal_takes hmost
      cases used₂ with
      | nil => exact absurd (List.cons.inj hused₂).1 hd
      | cons d' used₂ =>
        rw [List.cons_append] at hused₂
        obtain ⟨rfl, rfl⟩ := List.cons.inj hused₂
        have hle : low ≤ high := by
          by_contra hgt
          rw [if_neg hgt] at h
          cases h
        rw [if_pos hle] at h
        obtain ⟨rfl, -⟩ := Prod.mk.inj (Option.some.inj h)
        refine ⟨blanks₁ ++ (used₁ ++ ',' :: (blanks₂ ++ d :: (used₂ ++ ['\x7d']))), by
          rw [hcs]; simp, fun rest' hrest => ?_⟩
        have htext : blanks₁ ++ (used₁ ++ ',' :: (blanks₂ ++ d :: (used₂ ++ ['\x7d']))) ++ rest' =
            blanks₁ ++ (used₁ ++ ',' :: (blanks₂ ++ d :: (used₂ ++ '\x7d' :: rest'))) := by simp
        have hlike := (hrest.cons '\x7d').append used₂
        have hmost' := htakes₂ _ (Exchange.of_cons hrest (d :: used₂) '\x7d')
        rw [htext, readCounts_between (hleast' ((hlike.cons d).append blanks₂))
          (hskip₂ _ hlike) hd hmost', hlow, hhigh]
        exact if_pos hle

/-- What may begin the name of a special boundary is neither a blank nor a digit. -/
theorem not_blank_of_naming (h : (c.isAlpha || c == '-') = true) :
    Text.isBlank c = false ∧ c.isDigit = false := by
  have hval : c.toNat = c.val.toNat := rfl
  have hrange : (65 ≤ c.toNat ∧ c.toNat ≤ 90) ∨ (97 ≤ c.toNat ∧ c.toNat ≤ 122) ∨
      c.toNat = 45 := by
    rcases Bool.or_eq_true _ _ ▸ h with halpha | hhyphen
    · replace halpha : (decide (65 ≤ c.val ∧ c.val ≤ 90) ||
        (decide (97 ≤ c.val) && decide (c.val ≤ 122))) = true := halpha
      simp only [Bool.or_eq_true, decide_eq_true_eq, Bool.and_eq_true,
        UInt32.le_iff_toNat_le] at halpha
      rcases halpha with hupper | hlower
      · exact .inl hupper
      · exact .inr (.inl hlower)
    · rw [beq_iff_eq.1 hhyphen]
      decide
  constructor
  · unfold Text.isBlank
    simp
    omega
  · simp [Char.isDigit, UInt32.le_iff_toNat_le]
    omega

/-- Counts begin with a digit, apart from blanks and comments. -/
theorem counting_of_readCounts (h : readCounts? verbose cs = some (counts, rest)) :
    ∃ c after, skip verbose cs = c :: after ∧ (c.isAlpha || c == '-') = false := by
  have hleast : (readDecimal verbose (skip verbose cs)).1 ≠ none := by
    intro hnone
    rcases readCounts_cases h with ⟨least, hleast⟩ | ⟨least, after, hleast, hmore⟩
    · rw [hleast] at hnone
      obtain rfl : least = none := hnone
      rw [readCounts_exact hleast] at h
      cases h
    · rw [hleast] at hnone
      obtain rfl : least = none := hnone
      rcases hmore with hskip | ⟨d, z, most, hskip, hd, hmost⟩
      · rw [readCounts_open hleast hskip] at h
        cases h
      · rw [readCounts_between hleast hskip hd hmost] at h
        cases h
  cases hskip : skip verbose cs with
  | nil =>
    rw [hskip] at hleast
    exact absurd rfl hleast
  | cons c after =>
    refine ⟨c, after, rfl, ?_⟩
    rw [hskip] at hleast
    by_contra hnaming
    obtain ⟨hblank, hdigit⟩ := not_blank_of_naming (Bool.not_eq_false _ ▸ hnaming)
    exact hleast (readDecimal_none hblank hdigit)

/-! ## Openings -/

variable {changes changes' : FlagChanges} {negated dangling : Bool}

/-- Flags end before a colon or a parenthesis, and nothing behind it matters. -/
theorem readFlags_takes
    (h : readFlags? negated dangling changes cs = some (changes', rest)) :
    ∃ used d z, cs = used ++ d :: z ∧ rest = d :: z ∧ (d = ':' ∨ d = ')') ∧
      (∀ c ∈ used.head?, c = '-' ∨ (flagOf? c).isSome = true) ∧
      ∀ z', readFlags? negated dangling changes (used ++ d :: z') = some (changes', d :: z') := by
  induction cs generalizing negated dangling changes with
  | nil => cases h
  | cons c cs ih =>
    rw [readFlags?] at h
    by_cases hend : c = ':' ∨ c = ')'
    · rw [if_pos hend] at h
      by_cases hdangling : dangling = true
      · rw [if_pos hdangling] at h
        cases h
      · rw [if_neg hdangling] at h
        obtain ⟨rfl, rfl⟩ := Prod.mk.inj (Option.some.inj h)
        refine ⟨[], c, cs, rfl, rfl, hend, nofun, fun z' => ?_⟩
        rw [List.nil_append, readFlags?, if_pos hend, if_neg hdangling]
    · rw [if_neg hend] at h
      by_cases hhyphen : c = '-'
      · rw [if_pos hhyphen] at h
        by_cases hnegated : negated = true
        · rw [if_pos hnegated] at h
          cases h
        · rw [if_neg hnegated] at h
          obtain ⟨used, d, z, rfl, rfl, hd, -, htakes⟩ := ih h
          refine ⟨c :: used, d, z, rfl, rfl, hd, fun c' hc' => ?_, fun z' => ?_⟩
          · exact .inl (Option.some.inj hc' ▸ hhyphen)
          · rw [List.cons_append, readFlags?, if_neg hend, if_pos hhyphen, if_neg hnegated]
            exact htakes z'
      · rw [if_neg hhyphen] at h
        cases hflag : flagOf? c with
        | none =>
          rw [hflag] at h
          cases h
        | some f =>
          rw [hflag] at h
          dsimp only at h
          by_cases htwice : (changes.find? f).isSome = true
          · rw [if_pos htwice] at h
            cases h
          · rw [if_neg htwice] at h
            obtain ⟨used, d, z, rfl, rfl, hd, -, htakes⟩ := ih h
            refine ⟨c :: used, d, z, rfl, rfl, hd, fun c' hc' => ?_, fun z' => ?_⟩
            · obtain rfl := Option.some.inj hc'
              exact .inr (hflag ▸ rfl)
            · rw [List.cons_append, readFlags?, if_neg hend, if_neg hhyphen, hflag]
              dsimp only
              rw [if_neg htwice]
              exact htakes z'

/-- The name of a group ends with an angle bracket, and nothing behind it matters. -/
theorem readName_takes {name : List Char} (h : readName? cs = some (name, rest)) :
    ∃ used, used ≠ [] ∧ cs = used ++ rest ∧
      ∀ rest', readName? (used ++ rest') = some (name, rest') := by
  unfold readName? at h
  split at h
  · rename_i c name₁ d rest₁ htake hdrop
    have hd : d = '>' := by
      have hfirst := List.head?_dropWhile_not (· ≠ '>') cs
      rw [hdrop] at hfirst
      simpa using hfirst
    subst hd
    have hname : '>' ∉ c :: name₁ := by
      intro hmem
      rw [← htake] at hmem
      have hother := List.mem_takeWhile_imp (p := (decide <| · ≠ '>')) hmem
      exact of_decide_eq_true hother rfl
    by_cases hvalid : ((c == '_' || Unicode.Property.alphabetic.holds c) &&
        name₁.all fun d => "_.[]".toList.contains d || Unicode.isAlphanumeric d) = true
    · dsimp only at h
      rw [if_pos hvalid] at h
      obtain ⟨rfl, rfl⟩ := Prod.mk.inj (Option.some.inj h)
      refine ⟨c :: name₁ ++ ['>'], by simp, ?_, fun rest' => ?_⟩
      · rw [← List.takeWhile_append_dropWhile (p := (decide <| · ≠ '>')) (l := cs), htake, hdrop]
        simp
      · rw [List.append_assoc, List.singleton_append]
        obtain ⟨htake', hdrop'⟩ := takeWhile_dropWhile_ne hname rest'
        unfold readName?
        rw [htake', hdrop']
        exact if_pos hvalid
    · dsimp only at h
      rw [if_neg hvalid] at h
      cases h
  · cases h

/-- Behind an angle bracket the name of a group stands. -/
theorem readOpening_named (hequals : c ≠ '=') (hbang : c ≠ '!') :
    readOpening? ('?' :: '<' :: c :: cs) =
      (readName? (c :: cs)).map fun x => (.captureNamed x.1, x.2) := by
  simp [readOpening?, hequals, hbang]

/-- Otherwise flags stand behind a question mark, up to a colon or the end of the group. -/
theorem readOpening_flags {d : Char} {z : List Char}
    (hc : c = '-' ∨ c = ':' ∨ c = ')' ∨ (flagOf? c).isSome = true)
    (h : readFlags? false false [] (c :: cs) = some (changes, d :: z)) :
    readOpening? ('?' :: c :: cs) =
      if d = ':' then some (.flagged changes, z)
      else if changes = [] then none else some (.flagsOnly changes, z) := by
  have hother (e : Char) (he : e = '=' ∨ e = '!' ∨ e = '<' ∨ e = 'P') : c ≠ e := by
    rintro rfl
    rcases he with rfl | rfl | rfl | rfl <;> exact absurd hc (by decide)
  have hequals : c ≠ '=' := hother '=' (by simp)
  have hbang : c ≠ '!' := hother '!' (by simp)
  have hangle : c ≠ '<' := hother '<' (by simp)
  have hletter : c ≠ 'P' := hother 'P' (by simp)
  by_cases hd : d = ':'
  · subst hd
    simp [readOpening?, hequals, hbang, hangle, hletter, h]
  · simp [readOpening?, hequals, hbang, hangle, hletter, h, hd]

/-- The start of a group with flags. -/
theorem readOpening_flags_takes {o : Opening} {found : FlagChanges × List Char}
    (hflags : readFlags? false false [] after = some found)
    (h : readOpening? ('?' :: after) = some (o, rest)) :
    ∃ used, '?' :: after = used ++ rest ∧
      ∀ rest', readOpening? (used ++ rest') = some (o, rest') := by
  obtain ⟨changes, rest₁⟩ := found
  obtain ⟨used, d, z, rfl, rfl, hd, hfirst, htakes⟩ := readFlags_takes hflags
  have hopening (z' : List Char) : readOpening? ('?' :: (used ++ d :: z')) =
      if d = ':' then some (.flagged changes, z')
      else if changes = [] then none else some (.flagsOnly changes, z') := by
    have hflags' := htakes z'
    cases used with
    | nil => exact readOpening_flags (.inr (hd.imp_right .inl)) hflags'
    | cons c used =>
      exact readOpening_flags ((hfirst c rfl).imp_right fun hflag => .inr (.inr hflag)) hflags'
  rw [hopening] at h
  refine ⟨'?' :: (used ++ [d]), ?_⟩
  have htext (rest' : List Char) :
      '?' :: (used ++ [d]) ++ rest' = '?' :: (used ++ d :: rest') := by
    simp
  by_cases hcolon : d = ':'
  · rw [if_pos hcolon] at h
    obtain ⟨rfl, rfl⟩ := Prod.mk.inj (Option.some.inj h)
    exact ⟨(htext z).symm, fun rest' => by rw [htext, hopening, if_pos hcolon]⟩
  · rw [if_neg hcolon] at h
    by_cases hempty : changes = []
    · rw [if_pos hempty] at h
      cases h
    · rw [if_neg hempty] at h
      obtain ⟨rfl, rfl⟩ := Prod.mk.inj (Option.some.inj h)
      exact ⟨(htext z).symm, fun rest' => by rw [htext, hopening, if_neg hcolon, if_neg hempty]⟩

/-- Without a question mark a group is numbered. -/
theorem readOpening_capture (h : ∀ z, cs ≠ '?' :: z) :
    readOpening? cs = some (.capture, cs) := by
  unfold readOpening?
  split <;> first
    | exact absurd rfl (h _)
    | rfl

/-- The start of a group. -/
theorem readOpening_takes {o : Opening} (h : readOpening? cs = some (o, rest)) :
    ∃ used, cs = used ++ rest ∧ ∀ rest', Alike rest rest' →
      readOpening? (used ++ rest') = some (o, rest') := by
  have hread := h
  unfold readOpening? at h
  split at h
  · cases h
  · cases h
  · cases h
  · cases h
  · obtain ⟨⟨name, rest₁⟩, hname, heq⟩ := Option.map_eq_some_iff.1 h
    obtain ⟨rfl, rfl⟩ := Prod.mk.inj heq
    obtain ⟨used, -, rfl, htakes⟩ := readName_takes hname
    refine ⟨'?' :: 'P' :: '<' :: used, rfl, fun rest' _ => ?_⟩
    show (readName? (used ++ rest')).map _ = _
    rw [htakes]
    rfl
  · rename_i after hequals hbang
    obtain ⟨⟨name, rest₁⟩, hname, heq⟩ := Option.map_eq_some_iff.1 h
    obtain ⟨rfl, rfl⟩ := Prod.mk.inj heq
    obtain ⟨used, hne, rfl, htakes⟩ := readName_takes hname
    obtain ⟨c, used, rfl⟩ := List.exists_cons_of_ne_nil hne
    refine ⟨'?' :: '<' :: c :: used, rfl, fun rest' _ => ?_⟩
    have hname' := htakes rest'
    rw [List.cons_append] at hname'
    rw [List.cons_append, List.cons_append, List.cons_append,
      readOpening_named (fun heq => hequals (used ++ rest₁) (heq ▸ rfl))
        (fun heq => hbang (used ++ rest₁) (heq ▸ rfl)), hname']
    rfl
  · rename_i after _ _ _ _ _ _
    cases hflags : readFlags? false false [] after with
    | none =>
      rw [hflags] at h
      cases h
    | some found =>
      obtain ⟨used, hused, htakes⟩ := readOpening_flags_takes hflags hread
      exact ⟨used, hused, fun rest' _ => htakes rest'⟩
  · rename_i hplain
    obtain ⟨rfl, rfl⟩ := Prod.mk.inj (Option.some.inj h)
    refine ⟨[], rfl, fun rest' hrest => readOpening_capture fun z hz => ?_⟩
    rw [List.nil_append] at hz
    subst hz
    rcases hrest.symm.head with ⟨-, heq⟩ | ⟨z', rfl⟩
    · exact absurd heq (by decide)
    · exact hplain z' rfl

/-! ## Bodies -/

/-- The question mark of a lazy repetition is dropped or not whatever comes later. -/
theorem dropLazy_takes (cs : List Char) :
    ∃ used, cs = used ++ dropLazy cs ∧
      ∀ rest', Alike (dropLazy cs) rest' → dropLazy (used ++ rest') = rest' := by
  unfold dropLazy
  split
  · exact ⟨['?'], rfl, fun _ _ => rfl⟩
  · rename_i hplain
    refine ⟨[], rfl, fun rest' hrest => ?_⟩
    split
    · rename_i z heq
      rw [List.nil_append] at heq
      subst heq
      rcases hrest.symm.head with ⟨-, heq⟩ | ⟨z', rfl⟩
      · exact absurd heq (by decide)
      · exact absurd rfl (hplain z')
    · rfl

/-- The parts read so far with the last one repeated. -/
def repeatLast? (items : List Pattern) (least : Nat) (most : Option Nat) : Option (List Pattern) :=
  (lastOperand? items).map fun x => x.1 ++ [.times least most x.2]

/-- The names and the flag changes with which the body of a group is entered. -/
def Opening.entered? (names : List (List Char)) :
    Opening → Option (List (List Char) × FlagChanges)
  | .capture => some (names, [])
  | .captureNamed name => if names.contains name then none else some (name :: names, [])
  | .flagged changes => some (names, changes)
  | .flagsOnly _ => none

/-- Whether verbose mode is on after flag changes. -/
def verboseAfter (verbose : Bool) (changes : FlagChanges) : Bool :=
  (changes.find? .verbose).getD verbose

/-- The characters that do not stand for themselves or for a class in a body. -/
def isStructural (c : Char) : Prop :=
  c ∈ [')', '|', '[', '?', '*', '+', '\x7b', '(']

variable {alts items items' : List Pattern} {names names' names₁ : List (List Char)} {p : Pattern}
  {out : Pattern × Reading} {rest₁ : List Char}

/-- The end of the text ends a body. -/
theorem readBody_nil (h : skip verbose cs = []) :
    readBody? (n + 1) alts items ⟨verbose, names, cs⟩ =
      some (altOf (alts ++ [seqOf items]), ⟨verbose, names, []⟩) := by
  rw [readBody?]
  simp only [h]

/-- A closing parenthesis ends a body. -/
theorem readBody_paren (h : skip verbose cs = ')' :: after) :
    readBody? (n + 1) alts items ⟨verbose, names, cs⟩ =
      some (altOf (alts ++ [seqOf items]), ⟨verbose, names, ')' :: after⟩) := by
  rw [readBody?]
  simp only [h]

/-- A body ends before a tail. -/
theorem readBody_tail {t : List Char} (h : skip verbose cs = t) (ht : Tail t) :
    readBody? (n + 1) alts items ⟨verbose, names, cs⟩ =
      some (altOf (alts ++ [seqOf items]), ⟨verbose, names, t⟩) := by
  cases ht with
  | nil => exact readBody_nil h
  | paren z => exact readBody_paren h

/-- A bar ends an alternative. -/
theorem readBody_bar (h : skip verbose cs = '|' :: after) :
    readBody? (n + 1) alts items ⟨verbose, names, cs⟩ =
      readBody? n (alts ++ [seqOf items]) [] ⟨verbose, names, after⟩ := by
  rw [readBody?]
  simp only [h]

/-- A bracket opens a class. -/
theorem readBody_set (h : skip verbose cs = '[' :: after) :
    readBody? (n + 1) alts items ⟨verbose, names, cs⟩ =
      (readSet? verbose (after.length + 1) after).bind fun x =>
        readBody? n alts (items ++ [.set x.1]) ⟨verbose, names, x.2⟩ := by
  rw [readBody?]
  simp only [h]
  rfl

/-- The signs of repetitions without counts. -/
theorem readBody_repeat {least : Nat} {most : Option Nat}
    (hc : (c, least, most) ∈ [('?', 0, some 1), ('*', 0, none), ('+', 1, none)])
    (h : skip verbose cs = c :: after) :
    readBody? (n + 1) alts items ⟨verbose, names, cs⟩ =
      (repeatLast? items least most).bind fun items =>
        readBody? n alts items ⟨verbose, names, dropLazy after⟩ := by
  rw [readBody?, repeatLast?]
  simp only [List.mem_cons, Prod.mk.injEq, List.not_mem_nil, or_false] at hc
  rcases hc with ⟨rfl, rfl, rfl⟩ | ⟨rfl, rfl, rfl⟩ | ⟨rfl, rfl, rfl⟩ <;> simp only [h] <;>
    cases lastOperand? items <;> rfl

/-- A brace opens the counts of a repetition. -/
theorem readBody_counts (h : skip verbose cs = '\x7b' :: after) :
    readBody? (n + 1) alts items ⟨verbose, names, cs⟩ =
      (readCounts? verbose after).bind fun x =>
        (repeatLast? items x.1.1 x.1.2).bind fun items =>
          readBody? n alts items ⟨verbose, names, dropLazy (skip verbose x.2)⟩ := by
  rw [readBody?]
  simp only [h]
  cases readCounts? verbose after with
  | none => rfl
  | some x =>
    unfold repeatLast?
    cases lastOperand? items <;> rfl

/-- Any other character begins a part of its own. -/
theorem readBody_primitive (h : skip verbose cs = c :: after) (hc : ¬ isStructural c) :
    readBody? (n + 1) alts items ⟨verbose, names, cs⟩ =
      (readPrimitive? verbose (c :: after)).bind fun x =>
        readBody? n alts (items ++ [x.1]) ⟨verbose, names, x.2⟩ := by
  simp only [isStructural, List.mem_cons, List.not_mem_nil, or_false, not_or] at hc
  rw [readBody?]
  simp only [h]
  obtain ⟨h₁, h₂, h₃, h₄, h₅, h₆, h₇, h₈⟩ := hc
  split <;> first
    | contradiction
    | rfl

/-- A parenthesis may set flags for what follows. -/
theorem readBody_flags (h : skip verbose cs = '(' :: after)
    (hopening : readOpening? (skip verbose after) = some (.flagsOnly changes, rest₁)) :
    readBody? (n + 1) alts items ⟨verbose, names, cs⟩ =
      readBody? n alts (items ++ [.setFlags changes])
        ⟨verboseAfter verbose changes, names, rest₁⟩ := by
  rw [readBody?]
  simp only [h, hopening]
  rfl

/-- Otherwise a parenthesis opens a group. -/
theorem readBody_group {o : Opening} (h : skip verbose cs = '(' :: after)
    (hopening : readOpening? (skip verbose after) = some (o, rest₁))
    (hentered : o.entered? names = some (names₁, changes)) :
    readBody? (n + 1) alts items ⟨verbose, names, cs⟩ =
      (readBody? n [] [] ⟨verboseAfter verbose changes, names₁, rest₁⟩).bind fun x =>
        match x.2.rest with
        | ')' :: rest₂ => readBody? n alts (items ++ [.group changes x.1])
            ⟨verbose, x.2.names, rest₂⟩
        | _ => none := by
  rw [readBody?]
  cases o with
  | capture =>
    obtain ⟨rfl, rfl⟩ := Prod.mk.inj (Option.some.inj hentered)
    simp only [h, hopening]
    rfl
  | captureNamed name =>
    replace hentered : (if names.contains name then none else some (name :: names, [])) =
      some (names₁, changes) := hentered
    by_cases hold : name ∈ names
    · rw [if_pos (List.contains_iff_mem.2 hold)] at hentered
      cases hentered
    · rw [if_neg (mt List.contains_iff_mem.1 hold)] at hentered
      obtain ⟨rfl, rfl⟩ := Prod.mk.inj (Option.some.inj hentered)
      simp only [h, hopening]
      exact if_neg hold
  | flagged changes =>
    obtain ⟨rfl, rfl⟩ := Prod.mk.inj (Option.some.inj hentered)
    simp only [h, hopening]
    rfl
  | flagsOnly changes => cases hentered

/-- What begins with a parenthesis is flags or a group. -/
theorem readBody_open (h : skip verbose cs = '(' :: after)
    (hread : readBody? (n + 1) alts items ⟨verbose, names, cs⟩ = some out) :
    ∃ o rest₁, readOpening? (skip verbose after) = some (o, rest₁) ∧
      ((∃ changes, o = .flagsOnly changes) ∨
        ∃ names₁ changes, o.entered? names = some (names₁, changes)) := by
  rw [readBody?] at hread
  simp only [h] at hread
  obtain ⟨⟨o, rest₁⟩, hopening, hread⟩ := Option.bind_eq_some_iff.1 hread
  refine ⟨o, rest₁, hopening, ?_⟩
  cases o with
  | capture => exact .inr ⟨names, [], rfl⟩
  | captureNamed name =>
    unfold Opening.entered?
    by_cases hold : name ∈ names
    · dsimp only at hread
      rw [if_pos hold] at hread
      cases hread
    · exact .inr ⟨name :: names, [], if_neg (mt List.contains_iff_mem.1 hold)⟩
  | flagged changes => exact .inr ⟨names, changes, rfl⟩
  | flagsOnly changes => exact .inl ⟨changes, rfl⟩

variable {alts' : List Pattern} {r r' : Reading}

/-- The body `p` stands before a tail, whatever tail that is exchanged for. -/
def BodyStands (alts items : List Pattern) (r : Reading) (p : Pattern) (r' : Reading) : Prop :=
  Tail r'.rest ∧ ∃ used, r.rest = used ++ r'.rest ∧
    ∀ rest' m, Exchange used r'.rest rest' → used.length < m →
      readBody? m alts items ⟨r.verbose, r.names, used ++ rest'⟩ =
        some (p, ⟨r'.verbose, r'.names, rest'⟩)

/-- A step takes characters and leaves the rest to what follows it. -/
theorem BodyStands.step {u : List Char} (hskip : skip verbose cs = c :: (u ++ r.rest))
    (hnext : BodyStands alts' items' r p r')
    (hstep : ∀ rest₂ m cs' out, Exchange (c :: u) r.rest rest₂ → u.length < m →
      skip verbose cs' = c :: (u ++ rest₂) →
      readBody? m alts' items' ⟨r.verbose, r.names, rest₂⟩ = some out →
      readBody? (m + 1) alts items ⟨verbose, names, cs'⟩ = some out) :
    BodyStands alts items ⟨verbose, names, cs⟩ p r' := by
  obtain ⟨htail, used, hused, htakes⟩ := hnext
  -- What is passed over in front belongs to the step.
  obtain ⟨blanks, rfl, hskip'⟩ := skip_eq_cons hskip
  rw [hused] at hskip hskip' hstep
  refine ⟨htail, blanks ++ c :: (u ++ used), by simp [hused], fun rest' m hrest hm => ?_⟩
  obtain ⟨m, rfl⟩ : ∃ k, m = k + 1 := ⟨m - 1, by omega⟩
  simp only [List.length_append, List.length_cons] at hm
  have hinner : Exchange (c :: u ++ used) r'.rest rest' := hrest.right
  have htext : blanks ++ c :: (u ++ used) ++ rest' = blanks ++ c :: (u ++ (used ++ rest')) := by
    simp
  rw [htext]
  exact hstep _ m _ _ hinner.left (by omega) (hskip' _ (hinner.left.alike.append u))
    (htakes rest' m hinner.right (by omega))

/-- A word boundary is complete before a body that can be read. -/
theorem counting_of_readBody
    (h : readBody? n alts items ⟨verbose, names, rest⟩ = some out) : Counting verbose rest := by
  rintro inner rfl
  cases n with
  | zero => cases h
  | succ n =>
    have hskip : skip verbose ('\x7b' :: inner) = '\x7b' :: inner := by
      cases verbose <;> rfl
    rw [readBody_counts hskip] at h
    obtain ⟨⟨counts, after⟩, hcounts, -⟩ := Option.bind_eq_some_iff.1 h
    exact counting_of_readCounts hcounts

/-- A repetition, whose counts have been read. -/
theorem BodyStands.repeated {u : List Char} {least : Nat} {most : Option Nat}
    (hskip : skip verbose cs = c :: (u ++ after))
    (hitems : repeatLast? items least most = some items')
    (hnext : BodyStands alts items' ⟨verbose, names, dropLazy after⟩ p r')
    (hstep : ∀ after₂ m cs', Exchange u after after₂ → skip verbose cs' = c :: (u ++ after₂) →
      readBody? (m + 1) alts items ⟨verbose, names, cs'⟩ =
        (repeatLast? items least most).bind fun items =>
          readBody? m alts items ⟨verbose, names, dropLazy after₂⟩) :
    BodyStands alts items ⟨verbose, names, cs⟩ p r' := by
  obtain ⟨marks, hafter, hlazy⟩ := dropLazy_takes after
  rw [hafter, ← List.append_assoc] at hskip
  refine .step (u := u ++ marks) hskip hnext fun rest₂ m cs' out hrest _ hcs' hread => ?_
  have hinner : Exchange (u ++ marks) (dropLazy after) rest₂ := hrest.tail
  have hexchange : Exchange u after (marks ++ rest₂) := by
    rw [hafter]
    exact hinner.left
  rw [List.append_assoc] at hcs'
  rw [hstep _ m cs' hexchange hcs', hitems, Option.bind_some, hlazy _ hinner.right.alike]
  exact hread

/-- With the fuel `n` all bodies stand before the tail that they were read before. -/
def BodiesStand (n : Nat) : Prop :=
  ∀ ⦃alts items : List Pattern⦄ ⦃r r' : Reading⦄ ⦃p : Pattern⦄,
    readBody? n alts items r = some (p, r') → BodyStands alts items r p r'

/-- A body that ends at once. -/
theorem bodyStands_end {t : List Char} (hs : skip verbose cs = t) (ht : Tail t) :
    BodyStands alts items ⟨verbose, names, cs⟩ (altOf (alts ++ [seqOf items]))
      ⟨verbose, names, t⟩ := by
  obtain ⟨blanks, hcs, hskip⟩ := skip_takes verbose cs
  rw [hs] at hcs hskip
  refine ⟨ht, blanks, hcs, fun rest' m hrest hm => ?_⟩
  obtain ⟨m, rfl⟩ : ∃ k, m = k + 1 := ⟨m - 1, by omega⟩
  exact readBody_tail (hskip rest' hrest) (hrest.alike.tail_right ht)

/-- A bar. -/
theorem bodyStands_bar (ih : BodiesStand n) (hs : skip verbose cs = '|' :: after)
    (h : readBody? (n + 1) alts items ⟨verbose, names, cs⟩ = some (p, r')) :
    BodyStands alts items ⟨verbose, names, cs⟩ p r' := by
  rw [readBody_bar hs] at h
  refine .step (u := []) hs (ih h) fun rest₂ m cs' out _ _ hcs' hread => ?_
  rw [readBody_bar hcs']
  exact hread

/-- A class. -/
theorem bodyStands_set (ih : BodiesStand n) (hs : skip verbose cs = '[' :: after)
    (h : readBody? (n + 1) alts items ⟨verbose, names, cs⟩ = some (p, r')) :
    BodyStands alts items ⟨verbose, names, cs⟩ p r' := by
  rw [readBody_set hs] at h
  obtain ⟨⟨item, rest₁⟩, hitem, hnext⟩ := Option.bind_eq_some_iff.1 h
  obtain ⟨u, rfl, htakes⟩ := readSet_takes hitem
  refine .step hs (ih hnext) fun rest₂ m cs' out hrest _ hcs' hread => ?_
  have hfuel : u.length < (u ++ rest₂).length + 1 := by
    rw [List.length_append]
    omega
  rw [readBody_set hcs', htakes rest₂ _ hrest.alike hfuel]
  exact hread

/-- A repetition without counts, which is its sign. -/
theorem bodyStands_repeat (least : Nat) (most : Option Nat) (ih : BodiesStand n)
    (hc : (c, least, most) ∈ [('?', 0, some 1), ('*', 0, none), ('+', 1, none)])
    (hs : skip verbose cs = c :: after)
    (h : readBody? (n + 1) alts items ⟨verbose, names, cs⟩ = some (p, r')) :
    BodyStands alts items ⟨verbose, names, cs⟩ p r' := by
  rw [readBody_repeat hc hs] at h
  obtain ⟨items', hitems, hnext⟩ := Option.bind_eq_some_iff.1 h
  exact .repeated (u := []) hs hitems (ih hnext) fun after₂ m cs' _ hcs' =>
    readBody_repeat hc hcs'

/-- A repetition with counts. -/
theorem bodyStands_counts (ih : BodiesStand n) (hs : skip verbose cs = '\x7b' :: after)
    (h : readBody? (n + 1) alts items ⟨verbose, names, cs⟩ = some (p, r')) :
    BodyStands alts items ⟨verbose, names, cs⟩ p r' := by
  rw [readBody_counts hs] at h
  obtain ⟨⟨⟨least, most⟩, rest₁⟩, hcounts, hmore⟩ := Option.bind_eq_some_iff.1 h
  obtain ⟨items', hitems, hnext⟩ := Option.bind_eq_some_iff.1 hmore
  obtain ⟨used, rfl, htakes⟩ := readCounts_takes hcounts
  obtain ⟨blanks, hrest₁, hskip⟩ := skip_takes verbose rest₁
  rw [hrest₁, ← List.append_assoc] at hs
  refine .repeated hs hitems (ih hnext) fun after₂ m cs' hexchange hcs' => ?_
  rw [List.append_assoc] at hcs'
  have hlike : Alike rest₁ (blanks ++ after₂) := by
    rw [hrest₁]
    exact hexchange.alike.append blanks
  rw [readBody_counts hcs', htakes _ hlike, Option.bind_some, hskip _ hexchange.right]

/-- What a parenthesis opens. -/
theorem bodyStands_open (ih : BodiesStand n)
    (hs : skip verbose cs = '(' :: after)
    (h : readBody? (n + 1) alts items ⟨verbose, names, cs⟩ = some (p, r')) :
    BodyStands alts items ⟨verbose, names, cs⟩ p r' := by
  obtain ⟨o, rest₁, hopening, hkind⟩ := readBody_open hs h
  obtain ⟨blanks, hafter, hskip⟩ := skip_takes verbose after
  obtain ⟨used₁, hused₁, htakes₁⟩ := readOpening_takes hopening
  rw [hused₁] at hafter hskip
  -- The opening is the same before anything alike.
  have hopening' {z : List Char} (hz : Exchange (blanks ++ used₁) rest₁ z) :
      readOpening? (skip verbose (blanks ++ (used₁ ++ z))) = some (o, z) := by
    rw [hskip _ hz.left]
    exact htakes₁ z hz.right.alike
  rcases hkind with ⟨changes, rfl⟩ | ⟨names₁, changes, hentered⟩
  · rw [readBody_flags hs hopening] at h
    rw [hafter, ← List.append_assoc] at hs
    refine .step hs (ih h) fun rest₂ m cs' out hrest _ hcs' hread => ?_
    rw [List.append_assoc] at hcs'
    rw [readBody_flags hcs' (hopening' hrest.tail)]
    exact hread
  · rw [readBody_group hs hopening hentered] at h
    obtain ⟨⟨body, inner⟩, hbody, hnext⟩ := Option.bind_eq_some_iff.1 h
    dsimp only at hnext
    split at hnext
    · rename_i rest₃ hinner
      -- The body of the group stands before the parenthesis that ends it, which is never exchanged.
      obtain ⟨-, used₂, hused₂, htakes₂⟩ := ih hbody
      rw [hinner] at hused₂ htakes₂
      obtain rfl : rest₁ = used₂ ++ ')' :: rest₃ := hused₂
      have htext (z : List Char) : blanks ++ used₁ ++ (used₂ ++ [')']) ++ z =
          blanks ++ (used₁ ++ (used₂ ++ ')' :: z)) := by simp
      rw [hafter, ← htext] at hs
      refine .step hs (ih hnext) fun rest₂ m cs' out hrest hm hcs' hread => ?_
      rw [htext] at hcs'
      have hlike := (hrest.alike.cons ')').append used₂
      have hexchange : Exchange (blanks ++ used₁) (used₂ ++ ')' :: rest₃)
          (used₂ ++ ')' :: rest₂) :=
        ⟨hlike, fun hnil => by simp at hnil⟩
      rw [readBody_group hcs' (hopening' hexchange) hentered,
        htakes₂ _ m (.of_cons hrest.alike used₂ ')') (by simp at hm; omega)]
      exact hread
    · cases hnext

/-- Any other part. -/
theorem bodyStands_primitive (ih : BodiesStand n) (hs : skip verbose cs = c :: after)
    (hc : ¬ isStructural c)
    (h : readBody? (n + 1) alts items ⟨verbose, names, cs⟩ = some (p, r')) :
    BodyStands alts items ⟨verbose, names, cs⟩ p r' := by
  rw [readBody_primitive hs hc] at h
  obtain ⟨⟨q, rest₁⟩, hq, hnext⟩ := Option.bind_eq_some_iff.1 h
  obtain ⟨used, hne, hused, htakes⟩ := readPrimitive_takes hq
  obtain ⟨d, u, rfl⟩ := List.exists_cons_of_ne_nil hne
  rw [List.cons_append] at hused
  obtain ⟨rfl, rfl⟩ := List.cons.inj hused
  refine .step hs (ih hnext) fun rest₂ m cs' out hrest _ hcs' hread => ?_
  rw [readBody_primitive hcs' hc, ← List.cons_append,
    htakes rest₂ hrest fun _ => counting_of_readBody hread]
  exact hread

/-- A body is the same before every tail. -/
theorem readBody_takes (h : readBody? n alts items r = some (p, r')) :
    BodyStands alts items r p r' := by
  induction n generalizing alts items r p r' with
  | zero => cases h
  | succ n ih =>
    have hshorter : BodiesStand n := fun _ _ _ _ _ => ih
    obtain ⟨verbose, names, cs⟩ := r
    -- The cases are those of the first character that is not passed over.
    cases hs : skip verbose cs with
    | nil =>
      rw [readBody_nil hs] at h
      obtain ⟨rfl, rfl⟩ := Prod.mk.inj (Option.some.inj h)
      exact bodyStands_end hs .nil
    | cons c after =>
      by_cases hc : isStructural c
      · simp only [isStructural, List.mem_cons, List.not_mem_nil, or_false] at hc
        rcases hc with rfl | rfl | rfl | rfl | rfl | rfl | rfl | rfl
        · rw [readBody_paren hs] at h
          obtain ⟨rfl, rfl⟩ := Prod.mk.inj (Option.some.inj h)
          exact bodyStands_end hs (.paren after)
        · exact bodyStands_bar hshorter hs h
        · exact bodyStands_set hshorter hs h
        · exact bodyStands_repeat 0 (some 1) hshorter (by simp) hs h
        · exact bodyStands_repeat 0 none hshorter (by simp) hs h
        · exact bodyStands_repeat 1 none hshorter (by simp) hs h
        · exact bodyStands_counts hshorter hs h
        · exact bodyStands_open hshorter hs h
      · exact bodyStands_primitive hshorter hs hc h

end Pattern

end TraceGen
