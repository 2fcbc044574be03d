import Mathlib.Data.List.Infix
import TraceGen.Text.Substitute

/-!
# What substitution leaves in a text

A text holds another one if that is an infix of it (`Text.holds_iff`). Substituting for a pattern
that occurs leaves what is written for it (`Text.isInfix_replaceFrom`), and it leaves every other
text that no occurrence of the pattern overlaps (`Text.Apart.isInfix_replaceFrom`).

Patterns between braces overlap few texts: no text without braces that does not lie between the
braces of the pattern (`Text.apart_of_braceless`), and no other pattern between braces
(`Text.apart_of_marks`).
-/

namespace TraceGen.Text

variable {pat rep keep text before after : List Char}

/-- A text occurs if it is an infix. -/
theorem occurs_iff_isInfix : occurs pat text = true ↔ pat <:+: text := by
  induction text with
  | nil => rw [occurs, List.isEmpty_iff, List.infix_nil]
  | cons c cs ih =>
    rw [occurs, Bool.or_eq_true, ih, List.isPrefixOf_iff_prefix, List.infix_cons_iff]

/-- A text is held if it is an infix. -/
theorem holds_iff {pat text : String} : holds pat text = true ↔ pat.toList <:+: text.toList :=
  occurs_iff_isInfix

/-! ## Where substituting goes on -/

/-- Passing over characters drops them. -/
theorem replaceFrom_eq_drop (pat rep : List Char) (skip : Nat) (text : List Char) :
    replaceFrom pat rep skip text = replaceFrom pat rep 0 (text.drop skip) := by
  induction text generalizing skip with
  | nil => cases skip <;> rfl
  | cons c cs ih =>
    cases skip with
    | zero => rfl
    | succ skip => rw [replaceFrom, ih skip, List.drop_succ_cons]

/-- An occurrence in front is replaced, and substituting goes on behind it. -/
theorem replaceFrom_append_self (hpat : pat ≠ []) (rep text : List Char) :
    replaceFrom pat rep 0 (pat ++ text) = rep ++ replaceFrom pat rep 0 text := by
  obtain ⟨c, cs, rfl⟩ := List.exists_cons_of_ne_nil hpat
  have hfront : (c :: cs).isPrefixOf (c :: (cs ++ text)) = true :=
    List.isPrefixOf_iff_prefix.2 (List.prefix_append (c :: cs) text)
  rw [List.cons_append, replaceFrom, if_pos hfront, List.length_cons, Nat.add_sub_cancel,
    replaceFrom_eq_drop, List.drop_left]

/-- A character at which no occurrence begins is passed over. -/
theorem replaceFrom_cons {c : Char} (rep : List Char) (h : ¬ pat <+: c :: text) :
    replaceFrom pat rep 0 (c :: text) = c :: replaceFrom pat rep 0 text := by
  rw [replaceFrom, if_neg (mt List.isPrefixOf_iff_prefix.1 h)]

/-! ## What is written -/

/-- What is written for a pattern is there if the pattern was. -/
theorem isInfix_replaceFrom (rep : List Char) (hpat : pat ≠ []) (h : pat <:+: text) :
    rep <:+: replaceFrom pat rep 0 text := by
  obtain ⟨before, after, rfl⟩ := h
  rw [List.append_assoc]
  -- The pattern that is found first need not be the one after `before`, but one is found.
  induction before with
  | nil =>
    rw [List.nil_append, replaceFrom_append_self hpat]
    exact (List.prefix_append ..).isInfix
  | cons c before ih =>
    rw [List.cons_append, replaceFrom]
    split
    · exact (List.prefix_append ..).isInfix
    · exact List.infix_cons ih

/-! ## What is left -/

/-- No occurrence of a pattern overlaps an occurrence of another text. -/
structure Apart (pat keep : List Char) : Prop where
  /-- No occurrence begins in the other text. -/
  begins : ∀ passed ahead after, keep = passed ++ ahead → ahead ≠ [] → ¬ pat <+: ahead ++ after
  /-- An occurrence that begins before the other text ends before it. -/
  ends : ∀ before after, before ≠ [] → pat <+: before ++ (keep ++ after) →
    pat.length ≤ before.length

/-- No occurrence of a pattern begins in a text that another one follows. -/
def NoneBegins (pat keep after : List Char) : Prop :=
  ∀ passed ahead, keep = passed ++ ahead → ahead ≠ [] → ¬ pat <+: ahead ++ after

/-- No occurrence begins at the first character, and none behind it. -/
theorem noneBegins_cons_iff {c : Char} :
    NoneBegins pat (c :: keep) after ↔
      ¬ pat <+: c :: (keep ++ after) ∧ NoneBegins pat keep after := by
  constructor
  · intro h
    refine ⟨h [] (c :: keep) rfl (List.cons_ne_nil c keep), fun passed ahead hkeep => ?_⟩
    exact h (c :: passed) ahead (by rw [hkeep, List.cons_append])
  · rintro ⟨hfirst, hrest⟩ passed ahead hkeep hahead
    cases passed with
    | nil =>
      rw [← List.nil_append ahead, ← hkeep]
      exact hfirst
    | cons d passed => exact hrest passed ahead (List.cons.inj hkeep).2 hahead

/-- Substituting passes over a text in which no occurrence begins. -/
theorem NoneBegins.replaceFrom_append (h : NoneBegins pat keep after) (rep : List Char) :
    replaceFrom pat rep 0 (keep ++ after) = keep ++ replaceFrom pat rep 0 after := by
  induction keep with
  | nil => rfl
  | cons c keep ih =>
    rw [noneBegins_cons_iff] at h
    rw [List.cons_append, replaceFrom_cons rep h.1, ih h.2, List.cons_append]

/-- No occurrence begins in a text that is apart from the pattern. -/
theorem Apart.noneBegins (h : Apart pat keep) (after : List Char) : NoneBegins pat keep after :=
  fun passed ahead hkeep hahead => h.begins passed ahead after hkeep hahead

/-- Substituting from before a text on leaves it, unless it is passed over. -/
theorem Apart.isInfix_replaceFrom_append (h : Apart pat keep) (rep : List Char) {skip : Nat}
    (before after : List Char) (hskip : skip ≤ before.length) :
    keep <:+: replaceFrom pat rep skip (before ++ (keep ++ after)) := by
  induction before generalizing skip with
  | nil =>
    obtain rfl := Nat.le_zero.1 hskip
    rw [List.nil_append, (h.noneBegins after).replaceFrom_append rep]
    exact (List.prefix_append ..).isInfix
  | cons c before ih =>
    cases skip with
    | succ skip => exact ih (Nat.le_of_succ_le_succ hskip)
    | zero =>
      rw [List.cons_append, replaceFrom]
      split
      · rename_i hprefix
        have hends := h.ends (c :: before) after (List.cons_ne_nil c before)
          (List.isPrefixOf_iff_prefix.1 hprefix)
        rw [List.length_cons] at hends
        exact (ih (by omega)).trans (List.suffix_append ..).isInfix
      · exact List.infix_cons (ih (Nat.zero_le _))

/-- Substituting leaves a text that is apart from the pattern. -/
theorem Apart.isInfix_replaceFrom (h : Apart pat keep) (rep : List Char) (hkeep : keep <:+: text) :
    keep <:+: replaceFrom pat rep 0 text := by
  obtain ⟨before, after, rfl⟩ := hkeep
  rw [List.append_assoc]
  exact h.isInfix_replaceFrom_append rep before after (Nat.zero_le _)

/-! ## Patterns between braces -/

/-- A pattern between braces. -/
def mark (inner : List Char) : List Char :=
  '\x7b' :: (inner ++ ['\x7d'])

/-- A text that holds no brace. -/
def Braceless (text : List Char) : Prop :=
  '\x7b' ∉ text ∧ '\x7d' ∉ text

/-- Whether a text holds a brace can be decided. -/
instance (text : List Char) : Decidable (Braceless text) :=
  inferInstanceAs (Decidable (_ ∧ _))

/-- A pattern between braces is not empty. -/
theorem mark_ne_nil (inner : List Char) : mark inner ≠ [] :=
  List.cons_ne_nil _ _

/-- Behind the first brace of a pattern there is no other one that opens. -/
theorem not_mem_tail_mark {inner : List Char} (h : Braceless inner) :
    '\x7b' ∉ inner ++ ['\x7d'] := by
  rw [List.mem_append, List.mem_singleton, not_or]
  exact ⟨h.1, by decide⟩

/-- What begins with a brace that opens does not begin in a text without one. -/
theorem noneBegins_of_not_mem (h : '\x7b' ∉ keep) (rest after : List Char) :
    NoneBegins ('\x7b' :: rest) keep after := by
  rintro passed ahead rfl hahead hbegins
  obtain ⟨c, cs, rfl⟩ := List.exists_cons_of_ne_nil hahead
  obtain ⟨rfl, -⟩ := List.cons_prefix_cons.1 hbegins
  exact h (List.mem_append_right _ List.mem_cons_self)

/-- A pattern that begins before a text and does not end there reaches into it with an end of what
is between its braces and with the last brace. -/
theorem exists_overlap {inner : List Char} (hbefore : before ≠ [])
    (hbegins : mark inner <+: before ++ text) (hlong : before.length < (mark inner).length) :
    ∃ front rest, inner = front ++ rest ∧ rest ++ ['\x7d'] <+: text := by
  obtain ⟨c, front, rfl⟩ := List.exists_cons_of_ne_nil hbefore
  have hmarked : inner ++ ['\x7d'] <+: front ++ text := (List.cons_prefix_cons.1 hbegins).2
  have hinner : inner <+: front ++ text := (List.prefix_append inner _).trans hmarked
  simp only [mark, List.length_cons, List.length_append, List.length_nil] at hlong
  obtain ⟨rest, rfl⟩ : front <+: inner :=
    List.prefix_of_prefix_length_le (List.prefix_append front text) hinner (by omega)
  rw [List.append_assoc, List.prefix_append_right_inj] at hmarked
  exact ⟨front, rest, rfl, hmarked⟩

/-- A text without braces is apart from a pattern that does not hold it between its braces. -/
theorem apart_of_braceless {inner : List Char} (hkeep : Braceless keep)
    (hinner : ¬ keep <:+: inner) : Apart (mark inner) keep := by
  constructor
  · intro passed ahead after
    exact noneBegins_of_not_mem hkeep.1 _ after passed ahead
  · intro before after hbefore hprefix
    by_contra hlong
    obtain ⟨front, rest, rfl, hrest⟩ := exists_overlap hbefore hprefix (Nat.lt_of_not_le hlong)
    -- The last brace lies behind the text, which then lies between the braces.
    rcases Nat.lt_or_ge rest.length keep.length with hlt | hge
    · have hbrace : rest ++ ['\x7d'] <+: keep :=
        List.prefix_of_prefix_length_le hrest (List.prefix_append keep after)
          (by rw [List.length_append, List.length_singleton]; omega)
      exact hkeep.2 (hbrace.subset (List.mem_append_right _ (List.mem_singleton_self _)))
    · have hinside : keep <+: rest :=
        List.prefix_of_prefix_length_le (List.prefix_append keep after)
          ((List.prefix_append rest _).trans hrest) hge
      exact hinner (hinside.isInfix.trans (List.suffix_append front rest).isInfix)

/-- What stands before the first of some character is the same in equal texts. -/
theorem eq_of_append_cons {c : Char} {rest : List Char} (hbefore : c ∉ before) (hkeep : c ∉ keep)
    (h : before ++ c :: rest = keep ++ c :: after) : before = keep := by
  have hfirst {text : List Char} (htext : c ∉ text) (rest : List Char) :
      (text ++ c :: rest).takeWhile (· ≠ c) = text := by
    have hall : ∀ x ∈ text, decide (x ≠ c) = true := fun x hx =>
      decide_eq_true fun hc => htext (hc ▸ hx)
    rw [List.takeWhile_append_of_pos hall, List.takeWhile_cons_of_neg (by simp), List.append_nil]
  calc before = (before ++ c :: rest).takeWhile (· ≠ c) := (hfirst hbefore rest).symm
    _ = (keep ++ c :: after).takeWhile (· ≠ c) := by rw [h]
    _ = keep := hfirst hkeep after

/-- Two patterns between braces are apart unless they are the same. -/
theorem apart_of_marks {inner other : List Char} (hinner : Braceless inner)
    (hother : Braceless other) (hne : inner ≠ other) : Apart (mark inner) (mark other) := by
  constructor
  · intro passed ahead after hsplit hahead hprefix
    cases passed with
    | nil =>
      rw [List.nil_append] at hsplit
      rw [← hsplit] at hprefix
      obtain ⟨rest, hrest⟩ : inner ++ ['\x7d'] <+: other ++ ['\x7d'] ++ after :=
        (List.cons_prefix_cons.1 hprefix).2
      rw [List.append_assoc, List.append_assoc] at hrest
      exact hne (eq_of_append_cons hinner.2 hother.2 hrest)
    | cons x passed =>
      have htail : other ++ ['\x7d'] = passed ++ ahead := (List.cons_eq_cons.1 hsplit).2
      exact noneBegins_of_not_mem (not_mem_tail_mark hother) _ after passed ahead htail hahead
        hprefix
  · intro before after hbefore hprefix
    by_contra hlong
    obtain ⟨front, rest, rfl, hrest⟩ := exists_overlap hbefore hprefix (Nat.lt_of_not_le hlong)
    -- The other pattern begins with a brace that is neither between the braces nor the last one.
    cases rest with
    | nil => exact absurd (List.cons_prefix_cons.1 hrest).1 (by decide)
    | cons x rest =>
      obtain ⟨rfl, -⟩ := List.cons_prefix_cons.1 hrest
      exact hinner.1 (List.mem_append_right _ List.mem_cons_self)

end TraceGen.Text
