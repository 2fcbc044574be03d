import Mathlib.Data.List.Infix
import TraceGen.Text.Substitute

/-!
# Substitution replaces every occurrence

The occurrences of a pattern cut a text into pieces that do not hold it. `Text.Replaced` says that
another text has the same pieces with something else between them, and `Text.replaceAll` makes such
a text (`Text.replaced_replaceAll`).
-/

namespace TraceGen.Text

/-- The text `out` is `text` with `rep` in the place of every occurrence of `pat`: both have the
same pieces, none of which holds the pattern. -/
def Replaced (pat rep text out : List Char) : Prop :=
  ∃ first rest, text = first ++ rest.flatMap (pat ++ ·) ∧ out = first ++ rest.flatMap (rep ++ ·) ∧
    ∀ piece ∈ first :: rest, ¬ pat <:+: piece

variable {pat rep text out : List Char}

/-- The empty text holds no pattern. -/
theorem Replaced.nil (hpat : pat ≠ []) : Replaced pat rep [] [] := by
  refine ⟨[], [], rfl, rfl, ?_⟩
  rw [List.forall_mem_singleton, List.infix_nil]
  exact hpat

/-- An occurrence in front begins a new piece. -/
theorem Replaced.occurrence (hpat : pat ≠ []) (h : Replaced pat rep text out) :
    Replaced pat rep (pat ++ text) (rep ++ out) := by
  obtain ⟨first, rest, rfl, rfl, hpieces⟩ := h
  refine ⟨[], first :: rest, ?_, ?_, ?_⟩
  · rw [List.flatMap_cons, List.nil_append, List.append_assoc]
  · rw [List.flatMap_cons, List.nil_append, List.append_assoc]
  · refine List.forall_mem_cons.2 ⟨?_, hpieces⟩
    rw [List.infix_nil]
    exact hpat

/-- A character at which no occurrence begins belongs to the first piece. -/
theorem Replaced.cons {c : Char} (hnot : ¬ pat <+: c :: text) (h : Replaced pat rep text out) :
    Replaced pat rep (c :: text) (c :: out) := by
  obtain ⟨first, rest, rfl, rfl, hpieces⟩ := h
  obtain ⟨hfirst, hrest⟩ := List.forall_mem_cons.1 hpieces
  refine ⟨c :: first, rest, rfl, rfl, List.forall_mem_cons.2 ⟨fun hinfix => ?_, hrest⟩⟩
  rcases List.infix_cons_iff.1 hinfix with hfront | hinfix
  · exact hnot (hfront.trans (List.prefix_append (c :: first) _))
  · exact hfirst hinfix

/-- Substituting from behind the passed characters replaces the occurrences there. -/
theorem replaced_replaceFrom (hpat : pat ≠ []) (rep : List Char) (skip : Nat) (text : List Char) :
    Replaced pat rep (text.drop skip) (replaceFrom pat rep skip text) := by
  induction text generalizing skip with
  | nil =>
    rw [List.drop_nil, replaceFrom]
    exact .nil hpat
  | cons c cs ih =>
    cases skip with
    | succ skip => exact ih skip
    | zero =>
      rw [List.drop_zero, replaceFrom]
      split
      · rename_i hfront
        obtain ⟨p, ps, rfl⟩ := List.exists_cons_of_ne_nil hpat
        obtain ⟨after, hafter⟩ := List.isPrefixOf_iff_prefix.1 hfront
        obtain ⟨rfl, rfl⟩ : p = c ∧ ps ++ after = cs := List.cons_eq_cons.1 hafter
        -- Substituting goes on behind the pattern.
        have hrest := ih ps.length
        rw [List.drop_left] at hrest
        exact hrest.occurrence hpat
      · rename_i hfront
        exact .cons (mt List.isPrefixOf_iff_prefix.2 hfront) (ih 0)

/-- Substitution replaces every occurrence. -/
theorem replaced_replaceAll {pat : String} (hpat : pat.toList ≠ []) (rep text : String) :
    Replaced pat.toList rep.toList text.toList (replaceAll pat rep text).toList := by
  unfold replaceAll
  rw [String.toList_ofList]
  exact replaced_replaceFrom hpat rep.toList 0 text.toList

end TraceGen.Text
