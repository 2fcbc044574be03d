import Mathlib.Data.List.Count
import TraceGen.Proofs.Text.Substitution

/-!
# Two substitutions at once

`Text.ReplacedAtOnce` says that two patterns are replaced where they occur in a text, which is read
once from left to right. Substituting for one pattern and then for the other may do something else:
what was written for the first pattern may hold the second one, or complete one that was begun in
front of it (`Text.Makes`). Then the second substitution replaces more than the occurrences that
were there. `Text.replacedAtOnce_iff` says, for two patterns between braces, that this is the only
thing that can go wrong.

In one direction this is a walk through the text (`Text.Marks.replaceFrom_twice`). In the other
direction the number of occurrences is compared: one that was made adds to those of the text
(`Text.Marks.le_occurrences`), and each one that is replaced changes the number of some character
by the same amount.
-/

namespace TraceGen.Text

variable {pat rep keep text after out s t x y : List Char} {c e : Char}

/-! ## Counting occurrences -/

/-- The number of places of a text at which a pattern begins. -/
def occurrences (pat : List Char) : List Char → Nat
  | [] => 0
  | c :: text => (if pat <+: c :: text then 1 else 0) + occurrences pat text

/-- A pattern occurs nowhere if it is no infix. -/
theorem occurrences_eq_zero_iff (hpat : pat ≠ []) :
    occurrences pat text = 0 ↔ ¬ pat <:+: text := by
  induction text with
  | nil => simpa [occurrences] using hpat
  | cons c text ih =>
    rw [occurrences, List.infix_cons_iff, not_or, ← ih]
    split <;> simp_all

/-- A text in which no occurrence begins does not count. -/
theorem NoneBegins.occurrences_append (h : NoneBegins pat keep after) :
    occurrences pat (keep ++ after) = occurrences pat after := by
  induction keep with
  | nil => rfl
  | cons c keep ih =>
    rw [noneBegins_cons_iff] at h
    rw [List.cons_append, occurrences, if_neg h.1, Nat.zero_add, ih h.2]

/-- A text without some character begins another one exactly if it does so in front of the
character. -/
theorem prefix_append_cons_iff (he : e ∉ s) : s <+: keep ++ e :: after ↔ s <+: keep := by
  refine ⟨fun h => ?_, fun h => h.trans (List.prefix_append ..)⟩
  induction keep generalizing s with
  | nil =>
    cases s with
    | nil => exact List.prefix_rfl
    | cons d s =>
      obtain ⟨rfl, -⟩ := List.cons_prefix_cons.1 h
      exact absurd List.mem_cons_self he
  | cons c keep ih =>
    cases s with
    | nil => exact List.nil_prefix
    | cons d s =>
      obtain ⟨rfl, hrest⟩ := List.cons_prefix_cons.1 h
      exact List.cons_prefix_cons.2 ⟨rfl, ih (List.not_mem_of_not_mem_cons he) hrest⟩

/-- No occurrence reaches over a character that does not stand in the pattern, so each one is on one
side of it. -/
theorem occurrences_append_cons (hpat : pat ≠ []) (he : e ∉ pat) (keep after : List Char) :
    occurrences pat (keep ++ e :: after) = occurrences pat keep + occurrences pat after := by
  induction keep with
  | nil =>
    have hnot : ¬ pat <+: e :: after := by
      intro hbegins
      obtain ⟨c, cs, rfl⟩ := List.exists_cons_of_ne_nil hpat
      obtain ⟨rfl, -⟩ := List.cons_prefix_cons.1 hbegins
      exact he List.mem_cons_self
    rw [List.nil_append, occurrences, occurrences, if_neg hnot]
  | cons c keep ih =>
    have hreach : pat <+: c :: (keep ++ e :: after) ↔ pat <+: c :: keep := by
      rw [← List.cons_append, prefix_append_cons_iff he]
    rw [List.cons_append, occurrences, occurrences, ih, Nat.add_assoc]
    simp only [hreach]

/-- A text ends with a character that does not stand in the pattern. -/
def EndsOff (pat text : List Char) : Prop :=
  ∃ front e, text = front ++ [e] ∧ e ∉ pat

/-- No beginning of a pattern reaches beyond a text that ends off it. -/
theorem EndsOff.prefix_append_iff (h : EndsOff pat x) (hs : s ⊆ pat) (after : List Char) :
    s <+: x ++ after ↔ s <+: x := by
  obtain ⟨front, e, rfl, he⟩ := h
  have hes : e ∉ s := fun hmem => he (hs hmem)
  rw [List.append_assoc, List.singleton_append, prefix_append_cons_iff hes,
    prefix_append_cons_iff hes]

/-- The occurrences in a text that ends off the pattern add to those behind it. -/
theorem EndsOff.occurrences_append (h : EndsOff pat x) (hpat : pat ≠ []) (after : List Char) :
    occurrences pat (x ++ after) = occurrences pat x + occurrences pat after := by
  obtain ⟨front, e, rfl, he⟩ := h
  rw [List.append_assoc, List.singleton_append, occurrences_append_cons hpat he,
    occurrences_append_cons hpat he, occurrences, Nat.add_zero]

/-- No occurrence begins in a text that does not hold the pattern and ends off it. -/
theorem EndsOff.noneBegins (h : EndsOff pat x) (hnot : ¬ pat <:+: x) (after : List Char) :
    NoneBegins pat x after := by
  obtain ⟨front, e, hx, he⟩ := h
  intro passed ahead hsplit hahead hbegins
  have hlast : ahead.getLast hahead = e := by
    have hends : (passed ++ ahead.dropLast) ++ [ahead.getLast hahead] = front ++ [e] := by
      rw [List.append_assoc, List.dropLast_concat_getLast, ← hsplit, hx]
    exact List.singleton_inj.1 (List.append_inj' hends rfl).2
  rw [← List.dropLast_concat_getLast hahead, hlast, List.append_assoc, List.singleton_append,
    prefix_append_cons_iff he] at hbegins
  refine hnot (hbegins.isInfix.trans ?_)
  rw [hsplit]
  exact (List.dropLast_prefix ahead).isInfix.trans (List.suffix_append ..).isInfix

/-! ## Between braces -/

/-- Two texts that make different patterns between braces. -/
structure Marks (first second : List Char) : Prop where
  /-- The first text holds no brace. -/
  first_braceless : Braceless first
  /-- The second text holds no brace. -/
  second_braceless : Braceless second
  /-- They are different. -/
  ne : first ≠ second

variable {first second inner front : List Char}

/-- An occurrence in front of a text adds one to its occurrences. -/
theorem occurrences_mark_append (h : Braceless inner) (text : List Char) :
    occurrences (mark inner) (mark inner ++ text) = 1 + occurrences (mark inner) text := by
  have hrest := (noneBegins_of_not_mem (not_mem_tail_mark h) (inner ++ ['\x7d'])
    text).occurrences_append
  have hfront : '\x7b' :: (inner ++ ['\x7d']) <+: '\x7b' :: (inner ++ ['\x7d'] ++ text) :=
    List.prefix_append ..
  rw [mark, List.cons_append, occurrences, if_pos hfront, hrest]

/-- What begins with a brace that opens is behind a text without one. -/
theorem infix_of_not_mem (h : '\x7b' ∉ keep) (hheld : '\x7b' :: s <:+: keep ++ text) :
    '\x7b' :: s <:+: text := by
  induction keep with
  | nil => exact hheld
  | cons c keep ih =>
    rw [List.mem_cons, not_or] at h
    refine ih h.2 ((List.infix_cons_iff.1 hheld).resolve_left fun hbegins => ?_)
    exact h.1 (List.cons_prefix_cons.1 hbegins).1

/-- What begins with a brace that opens, but not where a pattern does, is behind the pattern. -/
theorem infix_mark_append_iff (h : Braceless inner) (hnot : ¬ '\x7b' :: s <+: mark inner ++ text) :
    '\x7b' :: s <:+: mark inner ++ text ↔ '\x7b' :: s <:+: text := by
  refine ⟨fun hheld => ?_, fun hheld => hheld.trans (List.suffix_append ..).isInfix⟩
  rw [mark, List.cons_append] at hheld hnot
  exact infix_of_not_mem (not_mem_tail_mark h) ((List.infix_cons_iff.1 hheld).resolve_left hnot)

/-- A text that opens a brace twice does not begin where a pattern between braces does. -/
theorem not_opened_prefix_mark (hfront : Braceless front) (h : Braceless inner)
    (s text : List Char) :
    ¬ '\x7b' :: (front ++ '\x7b' :: s) <+: mark inner ++ text := by
  intro hbegins
  rw [mark, List.cons_append, List.append_assoc, List.singleton_append] at hbegins
  have hrest := (List.cons_prefix_cons.1 hbegins).2
  induction front generalizing inner with
  | nil =>
    cases inner with
    | nil => exact absurd (List.cons_prefix_cons.1 hrest).1 (by decide)
    | cons c inner => exact h.1 ((List.cons_prefix_cons.1 hrest).1 ▸ List.mem_cons_self)
  | cons d front ih =>
    cases inner with
    | nil => exact hfront.2 ((List.cons_prefix_cons.1 hrest).1 ▸ List.mem_cons_self)
    | cons c inner =>
      have hcons := (List.cons_prefix_cons.1 hrest).2
      exact ih ⟨List.not_mem_of_not_mem_cons hfront.1, List.not_mem_of_not_mem_cons hfront.2⟩
        ⟨List.not_mem_of_not_mem_cons h.1, List.not_mem_of_not_mem_cons h.2⟩
        (List.cons_prefix_cons.2 ⟨rfl, hcons⟩) hcons

/-- A pattern behind a brace that was opened does not overlap a pattern in front of it. -/
theorem opened_infix_mark_append_iff (hfront : Braceless front) (h : Braceless inner)
    (other text : List Char) :
    '\x7b' :: (front ++ mark other) <:+: mark inner ++ text ↔
      '\x7b' :: (front ++ mark other) <:+: text :=
  infix_mark_append_iff h (not_opened_prefix_mark hfront h _ text)

/-! ## Two patterns -/

/-- The text `out` is `text` with `x` in the place of every `p` and `y` in the place of every `q`;
the text is read once, and what was written is not looked at. -/
inductive ReplacedAtOnce (p x q y : List Char) : List Char → List Char → Prop where
  /-- There is nothing to read. -/
  | done : ReplacedAtOnce p x q y [] []
  /-- The first pattern occurs. -/
  | first {text out : List Char} (h : ReplacedAtOnce p x q y text out) :
    ReplacedAtOnce p x q y (p ++ text) (x ++ out)
  /-- The second pattern occurs. -/
  | second {text out : List Char} (h : ReplacedAtOnce p x q y text out) :
    ReplacedAtOnce p x q y (q ++ text) (y ++ out)
  /-- None of the patterns occurs, so that the character stays. -/
  | kept {c : Char} {text out : List Char} (hp : ¬ p <+: c :: text) (hq : ¬ q <+: c :: text)
    (h : ReplacedAtOnce p x q y text out) : ReplacedAtOnce p x q y (c :: text) (c :: out)

/-- Writing `x` for the first pattern makes an occurrence of the second one. -/
inductive Makes (first x second text : List Char) : Prop where
  /-- It holds one. -/
  | inside (htext : mark first <:+: text) (hx : mark second <:+: x)
  /-- It completes one that was begun in front of it. -/
  | completed (begun rest : List Char) (hsecond : second = begun ++ rest)
    (htext : '\x7b' :: (begun ++ mark first) <:+: text) (hx : rest ++ ['\x7d'] <+: x)

/-- A text without braces makes nothing. -/
theorem not_makes_of_braceless (hx : Braceless x) : ¬ Makes first x second text := by
  rintro (⟨-, hinside⟩ | ⟨begun, rest, -, -, hrest⟩)
  · exact hx.1 (hinside.subset List.mem_cons_self)
  · exact hx.2 (hrest.subset (List.mem_append_right _ (List.mem_singleton_self _)))

/-- Patterns that are not empty can be replaced at once in every text. -/
theorem exists_replacedAtOnce {p q : List Char} (hp : p ≠ []) (hq : q ≠ []) (x y : List Char)
    (text : List Char) : ∃ out, ReplacedAtOnce p x q y text out := by
  have hshort {p t : List Char} (hp : p ≠ []) : t.length < (p ++ t).length := by
    have := List.length_pos_iff.2 hp
    rw [List.length_append]
    omega
  induction hlength : text.length using Nat.strong_induction_on generalizing text with
  | _ n ih =>
    subst hlength
    by_cases hfirst : p <+: text
    · obtain ⟨t, rfl⟩ := hfirst
      obtain ⟨out, hout⟩ := ih _ (hshort hp) t rfl
      exact ⟨_, hout.first⟩
    by_cases hsecond : q <+: text
    · obtain ⟨t, rfl⟩ := hsecond
      obtain ⟨out, hout⟩ := ih _ (hshort hq) t rfl
      exact ⟨_, hout.second⟩
    cases text with
    | nil => exact ⟨[], .done⟩
    | cons c text =>
      obtain ⟨out, hout⟩ := ih _ (Nat.lt_succ_self _) text rfl
      exact ⟨_, hout.kept hfirst hsecond⟩

namespace Marks

/-- The two texts may change places. -/
theorem symm (h : Marks first second) : Marks second first :=
  ⟨h.second_braceless, h.first_braceless, h.ne.symm⟩

/-- Where the second pattern begins, the first one does not. -/
theorem not_begins (h : Marks first second) (text : List Char) :
    ¬ mark first <+: mark second ++ text :=
  (apart_of_marks h.first_braceless h.second_braceless h.ne).begins [] (mark second) text rfl
    (mark_ne_nil second)

/-- Both patterns are replaced at once in one way only. -/
theorem replacedAtOnce_unique {other : List Char} (h : Marks first second)
    (hout : ReplacedAtOnce (mark first) x (mark second) y text out)
    (hother : ReplacedAtOnce (mark first) x (mark second) y text other) : out = other := by
  -- In each case what stands in front of the text leaves only one rule for the other derivation.
  induction hout generalizing other with
  | done =>
    generalize hnil : ([] : List Char) = text at hother
    cases hother with
    | done => rfl
    | first => exact absurd hnil (List.cons_ne_nil _ _).symm
    | second => exact absurd hnil (List.cons_ne_nil _ _).symm
    | kept => cases hnil
  | @first text out hrest ih =>
    have hfront := List.prefix_append (mark first) text
    generalize htext : mark first ++ text = whole at hother hfront
    cases hother with
    | done => exact absurd htext (List.cons_ne_nil _ _)
    | first hother => rw [ih (List.append_cancel_left htext ▸ hother)]
    | second => exact absurd hfront (h.not_begins _)
    | kept hfirst => exact absurd hfront hfirst
  | @second text out hrest ih =>
    have hfront := List.prefix_append (mark second) text
    generalize htext : mark second ++ text = whole at hother hfront
    cases hother with
    | done => exact absurd htext (List.cons_ne_nil _ _)
    | first => exact absurd hfront (h.symm.not_begins _)
    | second hother => rw [ih (List.append_cancel_left htext ▸ hother)]
    | kept _ hsecond => exact absurd hfront hsecond
  | @kept c text out hfirst hsecond hrest ih =>
    generalize htext : c :: text = whole at hother hfirst hsecond
    cases hother with
    | done => cases htext
    | first => exact absurd (List.prefix_append ..) hfirst
    | second => exact absurd (List.prefix_append ..) hsecond
    | kept _ _ hother =>
      obtain ⟨rfl, rfl⟩ := List.cons.inj htext
      rw [ih hother]

/-- An occurrence of the first pattern counts for nothing. -/
theorem occurrences_first (h : Marks first second) (text : List Char) :
    occurrences (mark second) (mark first ++ text) = occurrences (mark second) text :=
  ((apart_of_marks h.second_braceless h.first_braceless h.ne.symm).noneBegins
    text).occurrences_append

/-- Substituting for the first pattern leaves an occurrence of the second one. -/
theorem replaceFrom_second (h : Marks first second) (x text : List Char) :
    replaceFrom (mark first) x 0 (mark second ++ text) =
      mark second ++ replaceFrom (mark first) x 0 text :=
  ((apart_of_marks h.first_braceless h.second_braceless h.ne).noneBegins
    text).replaceFrom_append x

/-! ### What is made -/

/-- What was begun of the second pattern holds no other brace. -/
theorem begun_braceless {begun rest : List Char} (h : Marks first second)
    (hsecond : second = begun ++ rest) : Braceless begun := by
  have hbraceless := h.second_braceless
  rw [hsecond] at hbraceless
  exact ⟨fun hmem => hbraceless.1 (List.mem_append_left _ hmem),
    fun hmem => hbraceless.2 (List.mem_append_left _ hmem)⟩

/-- In front of an occurrence of the first pattern nothing is made but what `x` holds. -/
theorem makes_first_iff (h : Marks first second) :
    Makes first x second (mark first ++ text) ↔
      mark second <:+: x ∨ Makes first x second text := by
  constructor
  · rintro (⟨-, hx⟩ | ⟨begun, rest, hsecond, htext, hx⟩)
    · exact .inl hx
    · rw [opened_infix_mark_append_iff (h.begun_braceless hsecond) h.first_braceless] at htext
      exact .inr (.completed begun rest hsecond htext hx)
  · rintro (hx | ⟨htext, hx⟩ | ⟨begun, rest, hsecond, htext, hx⟩)
    · exact .inside (List.prefix_append ..).isInfix hx
    · exact .inside (htext.trans (List.suffix_append ..).isInfix) hx
    · exact .completed begun rest hsecond (htext.trans (List.suffix_append ..).isInfix) hx

/-- In front of an occurrence of the second pattern nothing is made. -/
theorem makes_second_iff (h : Marks first second) :
    Makes first x second (mark second ++ text) ↔ Makes first x second text := by
  constructor
  · rintro (⟨htext, hx⟩ | ⟨begun, rest, hsecond, htext, hx⟩)
    · exact .inside ((infix_mark_append_iff h.second_braceless (h.not_begins text)).1 htext) hx
    · rw [opened_infix_mark_append_iff (h.begun_braceless hsecond) h.second_braceless] at htext
      exact .completed begun rest hsecond htext hx
  · rintro (⟨htext, hx⟩ | ⟨begun, rest, hsecond, htext, hx⟩)
    · exact .inside (htext.trans (List.suffix_append ..).isInfix) hx
    · exact .completed begun rest hsecond (htext.trans (List.suffix_append ..).isInfix) hx

/-- A part of the second pattern begins the text after the first substitution if it did so before,
or if it is completed by what is written for an occurrence of the first pattern. -/
theorem prefix_replaceFrom_iff (hends : EndsOff (mark second) x) (hs : s ⊆ mark second)
    (hopen : '\x7b' ∉ s) :
    s <+: replaceFrom (mark first) x 0 text ↔
      s <+: text ∨ ∃ begun rest, s = begun ++ rest ∧ rest ≠ [] ∧ rest <+: x ∧
        begun ++ mark first <+: text := by
  -- Up to the first occurrence the characters stay, and each is taken off the part as well.
  induction text generalizing s with
  | nil => simp [replaceFrom, mark]
  | cons c text ih =>
    by_cases hfirst : mark first <+: c :: text
    · -- Here `x` is written, and the text begins with a brace.
      have hwritten : s <+: replaceFrom (mark first) x 0 (c :: text) ↔ s <+: x := by
        obtain ⟨after, hafter⟩ := hfirst
        rw [← hafter, replaceFrom_append_self (mark_ne_nil first), hends.prefix_append_iff hs]
      rw [hwritten]
      constructor
      · intro hx
        cases s with
        | nil => exact .inl List.nil_prefix
        | cons d s => exact .inr ⟨[], d :: s, rfl, List.cons_ne_nil d s, hx, hfirst⟩
      · obtain ⟨rfl, -⟩ := List.cons_prefix_cons.1 hfirst
        rintro (htext | ⟨begun, rest, rfl, -, hx, htext⟩)
        · cases s with
          | nil => exact List.nil_prefix
          | cons d s =>
            obtain ⟨rfl, -⟩ := List.cons_prefix_cons.1 htext
            exact absurd List.mem_cons_self hopen
        · cases begun with
          | nil => exact hx
          | cons d begun =>
            obtain ⟨rfl, -⟩ := List.cons_prefix_cons.1 htext
            exact absurd List.mem_cons_self hopen
    · rw [replaceFrom_cons x hfirst]
      cases s with
      | nil => simp
      | cons d s =>
        have hrest := ih (List.subset_of_cons_subset hs) (List.not_mem_of_not_mem_cons hopen)
        rw [List.cons_prefix_cons, List.cons_prefix_cons, hrest]
        constructor
        · rintro ⟨rfl, htext | ⟨begun, rest, rfl, hne, hx, htext⟩⟩
          · exact .inl ⟨rfl, htext⟩
          · exact .inr ⟨d :: begun, rest, rfl, hne, hx, List.cons_prefix_cons.2 ⟨rfl, htext⟩⟩
        · rintro (⟨rfl, htext⟩ | ⟨begun, rest, hsplit, hne, hx, htext⟩)
          · exact ⟨rfl, .inl htext⟩
          · cases begun with
            | nil => exact absurd htext hfirst
            | cons b begun =>
              obtain ⟨rfl, rfl⟩ := List.cons.inj hsplit
              have hcons := List.cons_prefix_cons.1 htext
              exact ⟨hcons.1, .inr ⟨begun, rest, rfl, hne, hx, hcons.2⟩⟩

/-- At a character that stays an occurrence is made if the second pattern begins there after the
first substitution. -/
theorem makes_cons_iff (h : Marks first second) (hends : EndsOff (mark second) x)
    (hfirst : ¬ mark first <+: c :: text) (hsecond : ¬ mark second <+: c :: text) :
    Makes first x second (c :: text) ↔
      mark second <+: c :: replaceFrom (mark first) x 0 text ∨ Makes first x second text := by
  have hhere : mark second <+: c :: replaceFrom (mark first) x 0 text ↔
      ∃ begun rest, second = begun ++ rest ∧ '\x7b' :: (begun ++ mark first) <+: c :: text ∧
        rest ++ ['\x7d'] <+: x := by
    have htail : second ++ ['\x7d'] <+: replaceFrom (mark first) x 0 text ↔
        second ++ ['\x7d'] <+: text ∨ ∃ begun rest, second ++ ['\x7d'] = begun ++ rest ∧
          rest ≠ [] ∧ rest <+: x ∧ begun ++ mark first <+: text :=
      prefix_replaceFrom_iff hends (List.subset_cons_self '\x7b' (second ++ ['\x7d']))
        (not_mem_tail_mark h.second_braceless)
    rw [mark, List.cons_prefix_cons] at hsecond ⊢
    rw [htail]
    constructor
    · rintro ⟨rfl, htext | ⟨begun, rest, hsplit, hne, hx, htext⟩⟩
      · exact absurd ⟨rfl, htext⟩ hsecond
      · -- The last brace is among what is written for the first pattern.
        obtain ⟨rest, e, rfl⟩ := (List.eq_nil_or_concat rest).resolve_left hne
        rw [List.concat_eq_append] at hsplit hx
        rw [← List.append_assoc] at hsplit
        obtain ⟨rfl, hlast⟩ := List.append_inj' hsplit rfl
        rw [← hlast] at hx
        exact ⟨begun, rest, rfl, List.cons_prefix_cons.2 ⟨rfl, htext⟩, hx⟩
    · rintro ⟨begun, rest, rfl, htext, hx⟩
      have hcons := List.cons_prefix_cons.1 htext
      exact ⟨hcons.1, .inr ⟨begun, rest ++ ['\x7d'], List.append_assoc .., by simp, hx, hcons.2⟩⟩
  constructor
  · rintro (⟨htext, hx⟩ | ⟨begun, rest, hsplit, htext, hx⟩)
    · exact .inr (.inside ((List.infix_cons_iff.1 htext).resolve_left hfirst) hx)
    · rcases List.infix_cons_iff.1 htext with htext | htext
      · exact .inl (hhere.2 ⟨begun, rest, hsplit, htext, hx⟩)
      · exact .inr (.completed begun rest hsplit htext hx)
  · rintro (hmade | ⟨htext, hx⟩ | ⟨begun, rest, hsplit, htext, hx⟩)
    · obtain ⟨begun, rest, hsplit, htext, hx⟩ := hhere.1 hmade
      exact .completed begun rest hsplit htext.isInfix hx
    · exact .inside (List.infix_cons htext) hx
    · exact .completed begun rest hsplit (List.infix_cons htext) hx

/-! ### Counting what is replaced -/

/-- The first substitution loses no occurrence of the second pattern, and if it makes one there are
more. -/
theorem le_occurrences (h : Marks first second) (hends : EndsOff (mark second) x)
    (htext : ReplacedAtOnce (mark first) x (mark second) y text out) :
    occurrences (mark second) text ≤
        occurrences (mark second) (replaceFrom (mark first) x 0 text) ∧
      (Makes first x second text → occurrences (mark second) text <
        occurrences (mark second) (replaceFrom (mark first) x 0 text)) := by
  induction htext with
  | done =>
    refine ⟨Nat.le_refl _, ?_⟩
    rintro (⟨hfirst, -⟩ | ⟨begun, rest, -, hfirst, -⟩)
    · exact absurd (List.infix_nil.1 hfirst) (mark_ne_nil first)
    · exact absurd (List.infix_nil.1 hfirst) (List.cons_ne_nil _ _)
  | @first text out hrest ih =>
    obtain ⟨hle, hlt⟩ := ih
    rw [h.occurrences_first, replaceFrom_append_self (mark_ne_nil first),
      hends.occurrences_append (mark_ne_nil second), h.makes_first_iff]
    refine ⟨by omega, ?_⟩
    rintro (hx | hmakes)
    · have hsome : occurrences (mark second) x ≠ 0 :=
        fun hzero => (occurrences_eq_zero_iff (mark_ne_nil second)).1 hzero hx
      omega
    · have hless := hlt hmakes
      omega
  | @second text out hrest ih =>
    obtain ⟨hle, hlt⟩ := ih
    rw [h.replaceFrom_second, occurrences_mark_append h.second_braceless,
      occurrences_mark_append h.second_braceless, h.makes_second_iff]
    exact ⟨Nat.add_le_add_left hle 1, fun hmakes => Nat.add_lt_add_left (hlt hmakes) 1⟩
  | @kept c text out hfirst hsecond hrest ih =>
    obtain ⟨hle, hlt⟩ := ih
    -- The second pattern does not begin here in the text, but it may do so in what comes of it.
    rw [replaceFrom_cons x hfirst, occurrences, occurrences, if_neg hsecond,
      h.makes_cons_iff hends hfirst hsecond]
    by_cases hmade : mark second <+: c :: replaceFrom (mark first) x 0 text
    · rw [if_pos hmade]
      exact ⟨by omega, fun _ => by omega⟩
    · rw [if_neg hmade, Nat.zero_add, Nat.zero_add]
      exact ⟨hle, fun hmakes => hlt (hmakes.resolve_left hmade)⟩

/-- Every occurrence that is replaced at once changes how often a character stands in the text. -/
theorem count_of_replacedAtOnce (h : Marks first second) (z : Char)
    (htext : ReplacedAtOnce (mark first) x (mark second) y text out) :
    out.count z + occurrences (mark second) text * (mark second).count z =
      (replaceFrom (mark first) x 0 text).count z + occurrences (mark second) text * y.count z := by
  induction htext with
  | done => simp [occurrences, replaceFrom]
  | first hrest ih =>
    rw [h.occurrences_first, replaceFrom_append_self (mark_ne_nil first), List.count_append,
      List.count_append]
    omega
  | second hrest ih =>
    rw [h.replaceFrom_second, occurrences_mark_append h.second_braceless, List.count_append,
      List.count_append, Nat.add_mul, Nat.add_mul]
    omega
  | kept hfirst hsecond hrest ih =>
    rw [replaceFrom_cons x hfirst, occurrences, if_neg hsecond, Nat.zero_add, List.count_cons,
      List.count_cons]
    omega

/-- So does every occurrence that the second substitution replaces. -/
theorem count_replaceFrom (h : Marks first second) (z : Char) (y text : List Char) :
    (replaceFrom (mark second) y 0 text).count z +
        occurrences (mark second) text * (mark second).count z =
      text.count z + occurrences (mark second) text * y.count z := by
  -- The text is read as if both patterns were replaced, of which the first one is passed over.
  obtain ⟨out, htext⟩ :=
    exists_replacedAtOnce (mark_ne_nil first) (mark_ne_nil second) (mark first) y text
  induction htext with
  | done => simp [occurrences, replaceFrom]
  | first hrest ih =>
    rw [h.occurrences_first, h.symm.replaceFrom_second, List.count_append, List.count_append]
    omega
  | second hrest ih =>
    rw [replaceFrom_append_self (mark_ne_nil second), occurrences_mark_append h.second_braceless,
      List.count_append, List.count_append, Nat.add_mul, Nat.add_mul]
    omega
  | kept hfirst hsecond hrest ih =>
    rw [replaceFrom_cons y hsecond, occurrences, if_neg hsecond, Nat.zero_add, List.count_cons,
      List.count_cons]
    omega

/-- If the first substitution makes nothing, the second one replaces what was there. -/
theorem replaceFrom_twice (h : Marks first second) (hends : EndsOff (mark second) x)
    (htext : ReplacedAtOnce (mark first) x (mark second) y text out)
    (hnot : ¬ Makes first x second text) :
    replaceFrom (mark second) y 0 (replaceFrom (mark first) x 0 text) = out := by
  induction htext with
  | done => rfl
  | @first text out hrest ih =>
    rw [h.makes_first_iff, not_or] at hnot
    rw [replaceFrom_append_self (mark_ne_nil first),
      (hends.noneBegins hnot.1 _).replaceFrom_append, ih hnot.2]
  | @second text out hrest ih =>
    rw [h.makes_second_iff] at hnot
    rw [h.replaceFrom_second, replaceFrom_append_self (mark_ne_nil second), ih hnot]
  | @kept c text out hfirst hsecond hrest ih =>
    rw [h.makes_cons_iff hends hfirst hsecond, not_or] at hnot
    rw [replaceFrom_cons x hfirst, replaceFrom_cons y hnot.1, ih hnot.2]

end Marks

/-- One substitution after the other replaces two patterns at once exactly if the first one makes no
occurrence of the second pattern. What is written for the first pattern has to end off the second
one, and some character has to tell the second pattern from what is written for it. -/
theorem replacedAtOnce_iff (h : Marks first second) (hends : EndsOff (mark second) x) {z : Char}
    (hz : (mark second).count z ≠ y.count z) (text : List Char) :
    ReplacedAtOnce (mark first) x (mark second) y text
        (replaceFrom (mark second) y 0 (replaceFrom (mark first) x 0 text)) ↔
      ¬ Makes first x second text := by
  constructor
  · intro htext hmakes
    have hless := (h.le_occurrences hends htext).2 hmakes
    have honce := h.count_of_replacedAtOnce z htext
    have htwice := h.count_replaceFrom z y (replaceFrom (mark first) x 0 text)
    -- Both ways the same text is written, so that there are as many occurrences in both.
    generalize occurrences (mark second) text = there at *
    generalize occurrences (mark second) (replaceFrom (mark first) x 0 text) = found at *
    obtain ⟨more, rfl⟩ := Nat.exists_eq_add_of_lt hless
    have hequal : (more + 1) * (mark second).count z = (more + 1) * y.count z := by
      rw [Nat.add_assoc, Nat.add_mul there, Nat.add_mul there] at htwice
      omega
    exact hz (Nat.eq_of_mul_eq_mul_left (Nat.succ_pos more) hequal)
  · intro hnot
    obtain ⟨out, htext⟩ :=
      exists_replacedAtOnce (mark_ne_nil first) (mark_ne_nil second) x y text
    rw [h.replaceFrom_twice hends htext hnot]
    exact htext

end TraceGen.Text
