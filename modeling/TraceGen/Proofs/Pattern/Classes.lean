import TraceGen.Proofs.Pattern.Exchange

/-!
# What readers of classes look at

Inside a class the readers look further ahead than elsewhere. A hyphen makes a range or not by what
follows it (`MakesRange`), and behind a second bracket the name of an ASCII class may stand
(`readAscii_eq_some_iff`). What they look for is never a parenthesis, and a class has an end of its
own, so that a class is the same whatever comes behind it (`readSet_takes`).
-/

namespace TraceGen

namespace Pattern

variable {verbose : Bool} {s s' used rest rest' cs after : List Char} {c : Char}

/-! ## Classes -/

/-- Up to the first character that is no blank, being alike is kept. -/
theorem Alike.dropBlanks (h : Alike s s') :
    Alike (s.dropWhile Text.isBlank) (s'.dropWhile Text.isBlank) := by
  induction h with
  | tail h h' => cases h <;> cases h' <;> exact .tail (by constructor) (by constructor)
  | cons c h ih =>
    rw [List.dropWhile_cons, List.dropWhile_cons]
    split
    · exact ih
    · exact .cons c h

/-- A character that is no parenthesis is first in all texts that are alike. -/
theorem Alike.head?_eq {q : Char} (h : Alike s s') (hq : q ≠ ')') (hs : s.head? = some q) :
    s'.head? = some q := by
  cases s with
  | nil => cases hs
  | cons c s =>
    obtain rfl := Option.some.inj hs
    obtain ⟨z, rfl, -⟩ := h.cons_of_ne hq
    rfl

/-- In verbose mode blanks and a number sign are looked over. If nothing is behind them, the first
of them is seen. -/
theorem peek_verbose (s : List Char) :
    peek? true s = match s.dropWhile Text.isBlank with
      | '#' :: after => (after.dropWhile Text.isBlank).head?.or s.head?
      | after => after.head?.or s.head? :=
  rfl

/-- Behind a hyphen a character of interest is seen in all texts that are alike. -/
theorem peek_of_alike {q : Char} (hq : q = ']' ∨ q = '-') (h : Alike s s')
    (hpeek : peek? verbose s = some q) : peek? verbose s' = some q := by
  have hparen : q ≠ ')' := by rcases hq with rfl | rfl <;> decide
  have hhash : q ≠ '#' := by rcases hq with rfl | rfl <;> decide
  have hblank : Text.isBlank q = false := by rcases hq with rfl | rfl <;> decide
  -- The first character is no blank only if nothing is passed over.
  have hfirst (hs : s.head? = some q) : ∃ z, s.dropWhile Text.isBlank = q :: z := by
    cases s with
    | nil => cases hs
    | cons c s =>
      obtain rfl := Option.some.inj hs
      exact ⟨s, by rw [List.dropWhile_cons, hblank]; rfl⟩
  cases verbose with
  | false => exact h.head?_eq hparen hpeek
  | true =>
    rw [peek_verbose] at hpeek ⊢
    have hdrop := h.dropBlanks
    split at hpeek
    · rename_i after hs
      rw [hs] at hdrop
      obtain ⟨after', hs', hafter⟩ := hdrop.cons_of_ne (by decide)
      rw [hs']
      show ((after'.dropWhile Text.isBlank).head?.or s'.head?) = some q
      cases hnext : (after.dropWhile Text.isBlank).head? with
      | none =>
        rw [hnext, Option.none_or] at hpeek
        obtain ⟨z, hz⟩ := hfirst hpeek
        exact absurd (List.cons.inj (hz.symm.trans hs)).1 hhash
      | some next =>
        rw [hnext] at hpeek
        obtain rfl := Option.some.inj hpeek
        rw [hafter.dropBlanks.head?_eq hparen hnext]
        rfl
    · rename_i hother
      cases hs : s.dropWhile Text.isBlank with
      | nil =>
        rw [hs] at hpeek
        obtain ⟨z, hz⟩ := hfirst hpeek
        cases hz.symm.trans hs
      | cons next after =>
        rw [hs] at hpeek hdrop
        obtain rfl := Option.some.inj hpeek
        obtain ⟨after', hs', -⟩ := hdrop.cons_of_ne hparen
        rw [hs']
        split
        · rename_i heq
          exact absurd (List.cons.inj heq).1 hhash
        · rfl

/-- A range, or nothing if the ends are not characters in order. -/
def Atom.range? : Atom → Atom → Option CharSet
  | .literal low, .literal high =>
    if low.char ≤ high.char then some (.range low high) else none
  | _, _ => none

/-- Whether the hyphen `c` makes a range with what follows it. -/
def MakesRange (verbose : Bool) (c : Char) (after : List Char) : Prop :=
  ¬ (c ≠ '-' ∨ peek? verbose after = some ']' ∨ peek? verbose after = some '-')

/-- Whether there is a range is the same in all texts that are alike. -/
theorem makesRange_iff (h : Alike s s') : MakesRange verbose c s ↔ MakesRange verbose c s' := by
  have hpeek (q : Char) (hq : q = ']' ∨ q = '-') :
      peek? verbose s = some q ↔ peek? verbose s' = some q :=
    ⟨peek_of_alike hq h, peek_of_alike hq h.symm⟩
  rw [MakesRange, MakesRange, hpeek ']' (.inl rfl), hpeek '-' (.inr rfl)]

variable {first second : Atom} {rest₁ rest₂ : List Char}

/-- An atom that is no end of a range. -/
theorem readSetRange_item (hfirst : readSetAtom? verbose cs = some (first, rest₁))
    (hskip : skip verbose rest₁ = c :: after) (hrange : ¬ MakesRange verbose c after) :
    readSetRange? verbose cs = first.setItem?.map (·, c :: after) := by
  unfold readSetRange?
  rw [hfirst]
  dsimp only [Option.bind_eq_bind, Option.bind_some]
  rw [hskip]
  dsimp only
  rw [if_pos (not_not.1 hrange)]
  cases first.setItem? <;> rfl

/-- Two atoms that are the ends of a range. -/
theorem readSetRange_range (hfirst : readSetAtom? verbose cs = some (first, rest₁))
    (hskip : skip verbose rest₁ = c :: after) (hrange : MakesRange verbose c after)
    (hsecond : readSetAtom? verbose (skip verbose after) = some (second, rest₂)) :
    readSetRange? verbose cs = (first.range? second).map (·, rest₂) := by
  unfold readSetRange?
  rw [hfirst]
  dsimp only [Option.bind_eq_bind, Option.bind_some]
  rw [hskip]
  dsimp only
  rw [if_neg hrange, hsecond]
  dsimp only [Option.bind_eq_bind, Option.bind_some]
  cases first with
  | literal low =>
    cases second with
    | literal high =>
      show (if low.char ≤ high.char then some (CharSet.range low high, rest₂) else none) =
        (if low.char ≤ high.char then some (CharSet.range low high) else none).map (·, rest₂)
      by_cases hle : low.char ≤ high.char
      · rw [if_pos hle, if_pos hle]
        rfl
      · rw [if_neg hle, if_neg hle]
        rfl
    | assertion | shorthand | named => rfl
  | assertion | shorthand | named => rfl

/-- The item `item` is read before `c` and a rest, whatever that rest is exchanged for. Something
must come behind it, as a class does not end with the text. -/
def ItemTaken (verbose : Bool) (cs : List Char) (c : Char) (z : List Char) (item : CharSet) :
    Prop :=
  ∃ used, used ≠ [] ∧ cs = used ++ c :: z ∧ ∀ z', Alike z z' →
    readSetRange? verbose (used ++ c :: z') = some (item, c :: z')

variable {item : CharSet} {z : List Char} {d : Char}

/-- The step of an atom that is no end of a range. -/
theorem itemTaken_item (hfirst : readSetAtom? verbose cs = some (first, rest₁))
    (hskip : skip verbose rest₁ = c :: z) (hrange : ¬ MakesRange verbose c z)
    (hitem : first.setItem? = some item) : ItemTaken verbose cs c z item := by
  obtain ⟨used, hne, rfl, htakes⟩ := readSetAtom_takes hfirst
  obtain ⟨blanks, rfl, hskip'⟩ := skip_eq_cons hskip
  refine ⟨used ++ blanks, by simp [hne], by simp, fun z' hz => ?_⟩
  have hword : first ≠ .assertion .wordBoundary := by
    rintro rfl
    cases hitem
  have hfirst' := htakes (blanks ++ c :: z')
    ⟨(hz.cons c).append blanks, fun hnil => by simp at hnil⟩ (absurd · hword)
  rw [List.append_assoc, readSetRange_item hfirst' (hskip' z' hz)
    ((makesRange_iff hz).not.1 hrange), hitem]
  rfl

/-- The step of a range. -/
theorem itemTaken_range (hfirst : readSetAtom? verbose cs = some (first, rest₁))
    (hskip : skip verbose rest₁ = d :: after) (hrange : MakesRange verbose d after)
    (hsecond : readSetAtom? verbose (skip verbose after) = some (second, c :: z))
    (hitem : first.range? second = some item) : ItemTaken verbose cs c z item := by
  obtain ⟨used₁, -, rfl, htakes₁⟩ := readSetAtom_takes hfirst
  obtain ⟨blanks₁, rfl, hskip₁⟩ := skip_eq_cons hskip
  obtain ⟨blanks₂, hafter, hskip₂⟩ := skip_takes verbose after
  obtain ⟨used₂, -, hused₂, htakes₂⟩ := readSetAtom_takes hsecond
  rw [hused₂] at hafter hskip₂
  obtain ⟨low, high, rfl, rfl⟩ : ∃ low high, first = .literal low ∧ second = .literal high := by
    cases first with
    | literal low =>
      cases second with
      | literal high => exact ⟨low, high, rfl, rfl⟩
      | assertion | shorthand | named => cases hitem
    | assertion | shorthand | named => cases hitem
  refine ⟨used₁ ++ blanks₁ ++ d :: (blanks₂ ++ used₂), by simp, by simp [hafter],
    fun z' hz => ?_⟩
  have hrest : Exchange (blanks₂ ++ used₂) (c :: z) (c :: z') := .of_cons hz _ _
  have hlike : Alike after (blanks₂ ++ (used₂ ++ c :: z')) := by
    rw [hafter]
    exact hrest.left.alike.append blanks₂
  have hfirst' := htakes₁ (blanks₁ ++ d :: (blanks₂ ++ (used₂ ++ c :: z')))
    ⟨(hlike.cons d).append blanks₁, fun hnil => by simp at hnil⟩ nofun
  have hsecond' : readSetAtom? verbose (skip verbose (blanks₂ ++ (used₂ ++ c :: z'))) =
      some (.literal high, c :: z') := by
    rw [hskip₂ _ hrest.left]
    exact htakes₂ _ hrest.right nofun
  have htext : used₁ ++ blanks₁ ++ d :: (blanks₂ ++ used₂) ++ c :: z' =
      used₁ ++ (blanks₁ ++ d :: (blanks₂ ++ (used₂ ++ c :: z'))) := by simp
  rw [htext, readSetRange_range hfirst' (hskip₁ _ hlike) ((makesRange_iff hlike).1 hrange)
    hsecond', hitem]
  rfl

/-- An item of a class. -/
theorem readSetRange_takes (h : readSetRange? verbose cs = some (item, c :: z)) :
    ItemTaken verbose cs c z item := by
  obtain ⟨⟨first, rest₁⟩, hfirst, hafter⟩ := Option.bind_eq_some_iff.1 h
  cases hskip : skip verbose rest₁ with
  | nil =>
    dsimp only at hafter
    rw [hskip] at hafter
    cases hafter
  | cons d after =>
    by_cases hrange : MakesRange verbose d after
    · cases hsecond : readSetAtom? verbose (skip verbose after) with
      | none =>
        dsimp only at hafter
        rw [hskip] at hafter
        dsimp only at hafter
        rw [if_neg hrange, hsecond] at hafter
        cases hafter
      | some found =>
        rw [readSetRange_range hfirst hskip hrange hsecond] at h
        obtain ⟨item', hitem, hres⟩ := Option.map_eq_some_iff.1 h
        obtain ⟨rfl, hrest⟩ := Prod.mk.inj hres
        exact itemTaken_range hfirst hskip hrange (hrest ▸ hsecond) hitem
    · rw [readSetRange_item hfirst hskip hrange] at h
      obtain ⟨item', hitem, hres⟩ := Option.map_eq_some_iff.1 h
      obtain ⟨rfl, hrest⟩ := Prod.mk.inj hres
      obtain ⟨rfl, rfl⟩ := List.cons.inj hrest
      exact itemTaken_item hfirst hskip hrange hitem

/-! ## ASCII classes -/

/-- Behind characters that are no parentheses texts that are alike stay alike. -/
theorem Alike.of_append {u r : List Char} (hu : ')' ∉ u) (h : Alike (u ++ r) s') :
    ∃ z, s' = u ++ z ∧ Alike r z := by
  induction u generalizing s' with
  | nil => exact ⟨s', rfl, h⟩
  | cons c u ih =>
    obtain ⟨hc, hu⟩ := not_or.1 (fun hmem => hu (List.mem_cons.2 hmem))
    obtain ⟨z, rfl, hz⟩ := h.cons_of_ne (Ne.symm hc)
    obtain ⟨z', rfl, hz'⟩ := ih hu hz
    exact ⟨z', rfl, hz'⟩

/-- A text that does not hold a character is what stands before the first such character. -/
theorem takeWhile_dropWhile_ne {stop : Char} {u : List Char} (hu : stop ∉ u) (z : List Char) :
    (u ++ stop :: z).takeWhile (· ≠ stop) = u ∧
      (u ++ stop :: z).dropWhile (· ≠ stop) = stop :: z := by
  have hall : ∀ d ∈ u, decide (d ≠ stop) = true := fun d hd =>
    decide_eq_true fun heq => hu (heq ▸ hd)
  constructor
  · rw [List.takeWhile_append_of_pos hall]
    simp
  · rw [List.dropWhile_append_of_pos hall]
    simp

/-- The names of ASCII classes hold none of the characters that stand around them. -/
theorem not_mem_of_asciiNames {name : List Char}
    (h : asciiNames.contains (String.ofList name) = true) :
    ')' ∉ name ∧ '^' ∉ name ∧ ':' ∉ name := by
  have hall : ∀ n ∈ asciiNames, ')' ∉ n.toList ∧ '^' ∉ n.toList ∧ ':' ∉ n.toList := by decide
  have hname := hall _ (List.contains_iff_mem.1 h)
  rwa [String.toList_ofList] at hname

/-- The text of an ASCII class behind its opening bracket. -/
def asciiText (name : List Char) (negated : Bool) : List Char :=
  ':' :: ((bif negated then ['^'] else []) ++ (name ++ [':', ']']))

/-- An ASCII class is read from its text. -/
theorem readAscii_eq_some_iff {item : CharSet} :
    readAscii? cs = some (item, rest) ↔ ∃ name negated,
      asciiNames.contains (String.ofList name) = true ∧ item = .ascii name negated ∧
        cs = asciiText name negated ++ rest := by
  constructor
  · intro h
    unfold readAscii? at h
    split at h
    · rename_i cs
      split at h
      rename_i negated inner hsign
      have hcs : cs = (bif negated then ['^'] else []) ++ inner := by
        split at hsign <;> cases hsign <;> rfl
      dsimp only at h
      split at h
      · rename_i after hafter
        split at h
        · rename_i hcontains
          obtain ⟨rfl, rfl⟩ := Prod.mk.inj (Option.some.inj h)
          refine ⟨_, negated, hcontains, rfl, ?_⟩
          have htext : inner = inner.takeWhile (· ≠ ':') ++ ':' :: ']' :: after := by
            rw [← hafter, List.takeWhile_append_dropWhile]
          rw [hcs, asciiText]
          generalize inner.takeWhile (· ≠ ':') = name at htext
          rw [htext]
          simp
        · cases h
      · cases h
    · cases h
  · rintro ⟨name, negated, hcontains, rfl, rfl⟩
    obtain ⟨-, hcaret, hcolon⟩ := not_mem_of_asciiNames hcontains
    obtain ⟨htake, hdrop⟩ := takeWhile_dropWhile_ne hcolon (']' :: rest)
    cases negated with
    | true =>
      have htext : asciiText name true ++ rest = ':' :: '^' :: (name ++ ':' :: ']' :: rest) := by
        simp [asciiText]
      rw [htext, readAscii?, htake, hdrop]
      exact if_pos hcontains
    | false =>
      have htext : asciiText name false ++ rest = ':' :: (name ++ ':' :: ']' :: rest) := by
        simp [asciiText]
      rw [htext, readAscii?]
      · rw [htake, hdrop]
        exact if_pos hcontains
      · rintro cs heq
        cases name with
        | nil => cases heq
        | cons c name => exact hcaret ((List.cons.inj heq).1 ▸ List.mem_cons_self)

/-- An ASCII class is complete, whatever comes behind it. -/
theorem readAscii_takes {item : CharSet} (h : readAscii? cs = some (item, rest)) :
    ∃ used, ')' ∉ used ∧ cs = used ++ rest ∧
      ∀ rest', readAscii? (used ++ rest') = some (item, rest') := by
  obtain ⟨name, negated, hcontains, rfl, rfl⟩ := readAscii_eq_some_iff.1 h
  obtain ⟨hparen, -, -⟩ := not_mem_of_asciiNames hcontains
  refine ⟨_, ?_, rfl, fun rest' =>
    readAscii_eq_some_iff.2 ⟨name, negated, hcontains, rfl, rfl⟩⟩
  cases negated <;> simp [asciiText, hparen]

/-- Whether an ASCII class stands in front is the same in all texts that are alike. -/
theorem readAscii_eq_none (h : Alike s s') (hs : readAscii? s = none) : readAscii? s' = none := by
  cases hs' : readAscii? s' with
  | none => rfl
  | some found =>
    obtain ⟨used, hparen, rfl, htakes⟩ := readAscii_takes hs'
    obtain ⟨z, rfl, -⟩ := h.symm.of_append hparen
    rw [htakes] at hs
    cases hs

/-! ## Classes in brackets -/

variable {n : Nat} {leading : Bool} {waiting : Option (SetOp × CharSet)} {items : List CharSet}
  {out : CharSet × List Char}

/-- The inside of a class by its next character. -/
theorem readSetBody_succ (h : skip verbose cs = c :: after) :
    readSetBody? verbose (n + 1) leading waiting items cs =
      if leading = true ∧ c = '-' then
        readSetBody? verbose n true waiting (items ++ [.one ⟨'-', false⟩]) after
      else if leading = true ∧ c = ']' ∧ items = [] then
        readSetBody? verbose n false waiting [.one ⟨']', false⟩] after
      else if c = ']' then some (closeSet waiting items, after)
      else if c = '[' then
        match readAscii? after with
        | some (item, rest) => readSetBody? verbose n false waiting (items ++ [item]) rest
        | none => do
          let (item, rest) ← readSet? verbose n after
          readSetBody? verbose n false waiting (items ++ [item]) rest
      else if c = '&' ∧ after.head? = some '&' then
        readSetBody? verbose n false (some (.intersection, closeSet waiting items)) [] after.tail
      else if c = '-' ∧ after.head? = some '-' then
        readSetBody? verbose n false (some (.difference, closeSet waiting items)) [] after.tail
      else if c = '~' ∧ after.head? = some '~' then
        readSetBody? verbose n false (some (.symmetricDifference, closeSet waiting items)) []
          after.tail
      else (do
        let (item, rest) ← readSetRange? verbose (c :: after)
        readSetBody? verbose n false waiting (items ++ [item]) rest) := by
  have hread := readSetBody?.eq_2 verbose leading waiting items cs n
  rw [h] at hread
  exact hread

/-- A bracket inside begins an ASCII class, or a class in brackets. -/
theorem readSetBody_bracket (h : skip verbose cs = '[' :: after) :
    readSetBody? verbose (n + 1) leading waiting items cs =
      match readAscii? after with
      | some (item, rest) => readSetBody? verbose n false waiting (items ++ [item]) rest
      | none => (readSet? verbose n after).bind fun x =>
          readSetBody? verbose n false waiting (items ++ [x.1]) x.2 := by
  rw [readSetBody_succ h, if_neg (fun heq => absurd heq.2 (by decide)),
    if_neg (fun heq => absurd heq.2.1 (by decide)), if_neg (by decide), if_pos rfl]
  cases readAscii? after <;> rfl

/-- A sign that comes twice is an operation, unless it is a hyphen at the front. -/
theorem readSetBody_operation {op : SetOp}
    (hop : (c, op) ∈ [('&', SetOp.intersection), ('-', .difference), ('~', .symmetricDifference)])
    (hfront : ¬ (leading = true ∧ c = '-')) (h : skip verbose cs = c :: after)
    (htwice : after.head? = some c) :
    readSetBody? verbose (n + 1) leading waiting items cs =
      readSetBody? verbose n false (some (op, closeSet waiting items)) [] after.tail := by
  rw [readSetBody_succ h, if_neg hfront, htwice]
  simp only [List.mem_cons, Prod.mk.injEq, List.not_mem_nil, or_false] at hop
  rcases hop with ⟨rfl, rfl⟩ | ⟨rfl, rfl⟩ | ⟨rfl, rfl⟩ <;> simp

/-- No sign of a class stands in front, so that an item does. -/
structure BeginsItem (leading : Bool) (items : List CharSet) (c : Char) (next : Option Char) :
    Prop where
  /-- No hyphen at the front of the class. -/
  hyphen : ¬ (leading = true ∧ c = '-')
  /-- No bracket as the first item. -/
  first : ¬ (leading = true ∧ c = ']' ∧ items = [])
  /-- No end of the class. -/
  close : c ≠ ']'
  /-- No class inside of it. -/
  inner : c ≠ '['
  /-- No sign of an operation. -/
  intersection : ¬ (c = '&' ∧ next = some '&')
  difference : ¬ (c = '-' ∧ next = some '-')
  symmetricDifference : ¬ (c = '~' ∧ next = some '~')

/-- Where no sign stands an item is read. -/
theorem readSetBody_item (h : skip verbose cs = c :: after)
    (hitem : BeginsItem leading items c after.head?) :
    readSetBody? verbose (n + 1) leading waiting items cs =
      (readSetRange? verbose (c :: after)).bind fun x =>
        readSetBody? verbose n false waiting (items ++ [x.1]) x.2 := by
  rw [readSetBody_succ h, if_neg hitem.hyphen, if_neg hitem.first, if_neg hitem.close,
    if_neg hitem.inner, if_neg hitem.intersection, if_neg hitem.difference,
    if_neg hitem.symmetricDifference]
  rfl

/-- A class by its first character. -/
theorem readSet_succ :
    readSet? verbose (n + 1) cs =
      if (skip verbose cs).head? = some '^' then
        (readSetBody? verbose n true none [] (skip verbose cs).tail).map
          fun x => (.bracket true x.1, x.2)
      else
        (readSetBody? verbose n true none [] (skip verbose cs)).map
          fun x => (.bracket false x.1, x.2) := by
  rw [readSet?]
  generalize skip verbose cs = s
  by_cases hs : s.head? = some '^'
  · obtain ⟨z, rfl⟩ : ∃ z, s = '^' :: z := by
      cases s with
      | nil => cases hs
      | cons c z => exact ⟨z, by rw [Option.some.inj hs]⟩
    show ((readSetBody? verbose n true none [] z).bind
      fun x => some (CharSet.bracket true x.1, x.2)) =
      (readSetBody? verbose n true none [] z).map _
    cases readSetBody? verbose n true none [] z <;> rfl
  · rw [if_neg hs]
    split
    rename_i negated body hsign
    split at hsign
    · exact absurd rfl hs
    · cases hsign
      cases readSetBody? verbose n true none [] s <;> rfl

variable {rest' : List Char} {item body : CharSet} {leading' : Bool}
  {waiting' : Option (SetOp × CharSet)} {items' : List CharSet}

/-- The class `item` stands before `rest`, whatever `rest` is exchanged for. -/
def SetTaken (verbose : Bool) (cs rest : List Char) (item : CharSet) : Prop :=
  ∃ used, cs = used ++ rest ∧ ∀ rest' m, Alike rest rest' → used.length < m →
    readSet? verbose m (used ++ rest') = some (item, rest')

/-- The inside of a class stands before `rest`, whatever `rest` is exchanged for. -/
def BodyTaken (verbose leading : Bool) (waiting : Option (SetOp × CharSet))
    (items : List CharSet) (cs rest : List Char) (body : CharSet) : Prop :=
  ∃ used, used ≠ [] ∧ cs = used ++ rest ∧ ∀ rest' m, Alike rest rest' → used.length ≤ m →
    readSetBody? verbose m leading waiting items (used ++ rest') = some (body, rest')

/-- With the fuel `n` classes are read so that what comes behind can be exchanged. -/
def SetsTaken (verbose : Bool) (n : Nat) : Prop :=
  ∀ ⦃cs rest : List Char⦄ ⦃item : CharSet⦄,
    readSet? verbose n cs = some (item, rest) → SetTaken verbose cs rest item

/-- With the fuel `n` the insides of classes are read so that what comes behind can be exchanged. -/
def BodiesTaken (verbose : Bool) (n : Nat) : Prop :=
  ∀ ⦃leading : Bool⦄ ⦃waiting : Option (SetOp × CharSet)⦄ ⦃items : List CharSet⦄
    ⦃cs rest : List Char⦄ ⦃body : CharSet⦄,
    readSetBody? verbose n leading waiting items cs = some (body, rest) →
      BodyTaken verbose leading waiting items cs rest body

/-- A class by its inside. -/
theorem setTaken_of_bodyTaken (hbody : BodiesTaken verbose n)
    (h : readSet? verbose (n + 1) cs = some (item, rest)) : SetTaken verbose cs rest item := by
  rw [readSet_succ] at h
  -- The inside begins at the first character, or behind a caret.
  by_cases hcaret : (skip verbose cs).head? = some '^'
  · rw [if_pos hcaret] at h
    obtain ⟨⟨body, rest₁⟩, hinner, heq⟩ := Option.map_eq_some_iff.1 h
    obtain ⟨rfl, rfl⟩ := Prod.mk.inj heq
    obtain ⟨after, hs⟩ := List.head?_eq_some_iff.1 hcaret
    obtain ⟨blanks, rfl, hskip⟩ := skip_eq_cons hs
    rw [hs, List.tail_cons] at hinner
    obtain ⟨used, -, rfl, htakes⟩ := hbody hinner
    refine ⟨blanks ++ '^' :: used, by simp, fun rest' m hrest hm => ?_⟩
    obtain ⟨m, rfl⟩ : ∃ k, m = k + 1 := ⟨m - 1, by omega⟩
    rw [List.append_assoc, List.cons_append, readSet_succ, hskip _ (hrest.append used),
      List.head?_cons, if_pos rfl, List.tail_cons, htakes rest' m hrest (by simp at hm; omega)]
    rfl
  · rw [if_neg hcaret] at h
    obtain ⟨⟨body, rest₁⟩, hinner, heq⟩ := Option.map_eq_some_iff.1 h
    obtain ⟨rfl, rfl⟩ := Prod.mk.inj heq
    obtain ⟨used, hne, hused, htakes⟩ := hbody hinner
    obtain ⟨c, used, rfl⟩ := List.exists_cons_of_ne_nil hne
    obtain ⟨blanks, rfl, hskip⟩ := skip_eq_cons hused
    rw [hused, List.cons_append, List.head?_cons] at hcaret
    refine ⟨blanks ++ c :: used, by simp, fun rest' m hrest hm => ?_⟩
    obtain ⟨m, rfl⟩ : ∃ k, m = k + 1 := ⟨m - 1, by omega⟩
    have hinner' := htakes rest' m hrest (by simp at hm ⊢; omega)
    rw [List.cons_append] at hinner'
    rw [List.append_assoc, List.cons_append, readSet_succ, hskip _ (hrest.append used),
      List.head?_cons, if_neg hcaret, hinner']
    rfl

/-- A step takes characters and leaves the rest to the inside that follows it. What follows is not
empty, as it holds the closing bracket at least. -/
theorem BodyTaken.step {u rest₁ : List Char} (hskip : skip verbose cs = c :: (u ++ rest₁))
    (hnext : BodyTaken verbose leading' waiting' items' rest₁ rest body)
    (hstep : ∀ d z z' m cs', rest₁ = d :: z → Alike z z' → u.length < m →
      skip verbose cs' = c :: (u ++ d :: z') →
      readSetBody? verbose (m + 1) leading waiting items cs' =
        readSetBody? verbose m leading' waiting' items' (d :: z')) :
    BodyTaken verbose leading waiting items cs rest body := by
  obtain ⟨used₂, hne, rfl, htakes⟩ := hnext
  obtain ⟨d, z, rfl⟩ := List.exists_cons_of_ne_nil hne
  obtain ⟨blanks, rfl, hskip'⟩ := skip_eq_cons hskip
  refine ⟨blanks ++ c :: (u ++ d :: z), by simp, by simp, fun rest' m hrest hm => ?_⟩
  obtain ⟨m, rfl⟩ : ∃ k, m = k + 1 := ⟨m - 1, by simp at hm; omega⟩
  simp only [List.length_append, List.length_cons] at hm
  have hlike := ((hrest.append z).cons d).append u
  have htext : blanks ++ c :: (u ++ d :: z) ++ rest' =
      blanks ++ c :: (u ++ d :: (z ++ rest')) := by simp
  rw [htext, hstep d (z ++ rest) (z ++ rest') m _ rfl (hrest.append z) (by omega)
    (hskip' _ hlike)]
  exact htakes rest' m hrest (by simp; omega)

/-- The step of an operation, which is written by its sign twice. -/
theorem BodyTaken.operation {op : SetOp}
    (hop : (c, op) ∈ [('&', SetOp.intersection), ('-', .difference), ('~', .symmetricDifference)])
    (hfront : ¬ (leading = true ∧ c = '-')) (hskip : skip verbose cs = c :: after)
    (htwice : after.head? = some c)
    (hnext : BodyTaken verbose false (some (op, closeSet waiting items)) [] after.tail rest body) :
    BodyTaken verbose leading waiting items cs rest body := by
  obtain ⟨z, rfl⟩ := List.head?_eq_some_iff.1 htwice
  exact .step (u := [c]) hskip hnext fun d _ z' m cs' _ _ _ hcs' =>
    readSetBody_operation hop hfront hcs' rfl

/-- The step of a bracket. -/
theorem bodyTaken_bracket (hset : SetsTaken verbose n) (hbody : BodiesTaken verbose n)
    (hs : skip verbose cs = '[' :: after)
    (h : readSetBody? verbose (n + 1) leading waiting items cs = some (body, rest)) :
    BodyTaken verbose leading waiting items cs rest body := by
  rw [readSetBody_bracket hs] at h
  cases hascii : readAscii? after with
  | some found =>
    obtain ⟨item, rest₁⟩ := found
    rw [hascii] at h
    obtain ⟨used₁, -, rfl, htakes⟩ := readAscii_takes hascii
    refine .step hs (hbody h) fun d z z' m cs' _ _ _ hcs' => ?_
    rw [readSetBody_bracket hcs', htakes]
  | none =>
    rw [hascii] at h
    obtain ⟨⟨item, rest₁⟩, hitem, hnext⟩ := Option.bind_eq_some_iff.1 h
    obtain ⟨used₁, rfl, htakes⟩ := hset hitem
    refine .step hs (hbody hnext) fun d z z' m cs' hrest hz hm hcs' => ?_
    subst hrest
    have hnone : readAscii? (used₁ ++ d :: z') = none :=
      readAscii_eq_none ((hz.cons d).append used₁) hascii
    rw [readSetBody_bracket hcs', hnone]
    dsimp only
    rw [htakes _ _ (hz.cons d) hm]
    rfl

/-- The step of an item. -/
theorem bodyTaken_item (hbody : BodiesTaken verbose n) (hs : skip verbose cs = c :: after)
    (hplain : BeginsItem leading items c after.head?)
    (h : readSetBody? verbose (n + 1) leading waiting items cs = some (body, rest)) :
    BodyTaken verbose leading waiting items cs rest body := by
  rw [readSetBody_item hs hplain] at h
  obtain ⟨⟨item, rest₁⟩, hrange, hnext⟩ := Option.bind_eq_some_iff.1 h
  have hafter := hbody hnext
  -- Something comes behind the item, as the class has an end.
  obtain ⟨d, z, rfl⟩ : ∃ d z, rest₁ = d :: z := by
    obtain ⟨used₂, hne, rfl, -⟩ := hafter
    obtain ⟨d, z, rfl⟩ := List.exists_cons_of_ne_nil hne
    exact ⟨d, z ++ rest, rfl⟩
  obtain ⟨used, hne, hused, htakes⟩ := readSetRange_takes hrange
  obtain ⟨c', used₁, rfl⟩ := List.exists_cons_of_ne_nil hne
  rw [List.cons_append] at hused
  obtain ⟨rfl, rfl⟩ := List.cons.inj hused
  refine .step hs hafter fun d' z₁ z' m cs' hrest hz hm hcs' => ?_
  obtain ⟨rfl, rfl⟩ := List.cons.inj hrest
  have hhead : (used₁ ++ d :: z).head? = (used₁ ++ d :: z').head? := by
    cases used₁ <;> rfl
  rw [hhead] at hplain
  have hitem := htakes z' hz
  rw [List.cons_append] at hitem
  rw [readSetBody_item hcs' hplain, hitem]
  rfl

/-- The inside of a class, by the class inside of it and by what follows its first step. -/
theorem bodyTaken_succ (hset : SetsTaken verbose n) (hbody : BodiesTaken verbose n)
    (h : readSetBody? verbose (n + 1) leading waiting items cs = some (body, rest)) :
    BodyTaken verbose leading waiting items cs rest body := by
  cases hs : skip verbose cs with
  | nil =>
    rw [readSetBody?, hs] at h
    cases h
  | cons c after =>
    by_cases hhyphen : leading = true ∧ c = '-'
    · rw [readSetBody_succ hs, if_pos hhyphen] at h
      refine BodyTaken.step (u := []) hs (hbody h) fun d z z' m cs' _ _ _ hcs' => ?_
      rw [readSetBody_succ hcs', if_pos hhyphen]
      rfl
    by_cases hfirst : leading = true ∧ c = ']' ∧ items = []
    · rw [readSetBody_succ hs, if_neg hhyphen, if_pos hfirst] at h
      refine BodyTaken.step (u := []) hs (hbody h) fun d z z' m cs' _ _ _ hcs' => ?_
      rw [readSetBody_succ hcs', if_neg hhyphen, if_pos hfirst]
      rfl
    by_cases hclose : c = ']'
    · rw [readSetBody_succ hs, if_neg hhyphen, if_neg hfirst, if_pos hclose] at h
      obtain ⟨rfl, rfl⟩ := Prod.mk.inj (Option.some.inj h)
      obtain ⟨blanks, rfl, hskip⟩ := skip_eq_cons hs
      refine ⟨blanks ++ [c], by simp, by simp, fun rest' m hrest hm => ?_⟩
      obtain ⟨m, rfl⟩ : ∃ k, m = k + 1 := ⟨m - 1, by simp at hm; omega⟩
      rw [List.append_assoc, List.singleton_append, readSetBody_succ (hskip _ hrest),
        if_neg hhyphen, if_neg hfirst, if_pos hclose]
    by_cases hinner : c = '['
    · subst hinner
      exact bodyTaken_bracket hset hbody hs h
    -- The signs of operations are treated in one way.
    have hoperation (op : SetOp) (hop : (c, op) ∈
        [('&', SetOp.intersection), ('-', .difference), ('~', .symmetricDifference)])
        (htwice : after.head? = some c) : BodyTaken verbose leading waiting items cs rest body := by
      rw [readSetBody_operation hop hhyphen hs htwice] at h
      exact .operation hop hhyphen hs htwice (hbody h)
    by_cases hand : c = '&' ∧ after.head? = some '&'
    · exact hoperation .intersection (by simp [hand.1]) (hand.1 ▸ hand.2)
    by_cases hminus : c = '-' ∧ after.head? = some '-'
    · exact hoperation .difference (by simp [hminus.1]) (hminus.1 ▸ hminus.2)
    by_cases htilde : c = '~' ∧ after.head? = some '~'
    · exact hoperation .symmetricDifference (by simp [htilde.1]) (htilde.1 ▸ htilde.2)
    exact bodyTaken_item hbody hs
      ⟨hhyphen, hfirst, hclose, hinner, hand, hminus, htilde⟩ h

/-- A class in brackets. -/
theorem readSet_takes (h : readSet? verbose n cs = some (item, rest)) :
    SetTaken verbose cs rest item := by
  -- A class and its inside call one another, both with less fuel.
  have hboth (n : Nat) : SetsTaken verbose n ∧ BodiesTaken verbose n := by
    induction n with
    | zero => exact ⟨nofun, nofun⟩
    | succ n ih =>
      exact ⟨fun _ _ _ => setTaken_of_bodyTaken ih.2, fun _ _ _ _ _ _ => bodyTaken_succ ih.1 ih.2⟩
  exact (hboth n).1 h

end Pattern

end TraceGen
