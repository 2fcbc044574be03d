import Mathlib.Data.List.DropRight
import TraceGen.Text.Blank

/-!
# Cutting texts

What is between separators (`Text.of_mem_splitOn`), and what is left of a text when its end has been
dropped: a text is the part that `Text.dropBack` leaves and characters that it drops
(`Text.exists_dropBack`), and no other part of it that ends differently (`Text.dropBack_append`).
-/

namespace TraceGen.Text

/-- The pieces between separators hold the characters of the text, without the separator. -/
theorem of_mem_splitOn {c d : Char} {cs piece : List Char} (h : piece ∈ cs.splitOn c)
    (hd : d ∈ piece) : d ∈ cs ∧ d ≠ c := by
  rw [List.splitOn_eq_splitOnP] at h
  induction cs generalizing piece with
  | nil =>
    rw [List.splitOnP_nil, List.mem_singleton] at h
    rw [h] at hd
    exact absurd hd List.not_mem_nil
  | cons e cs ih =>
    have hrest {piece : List Char} (h : piece ∈ cs.splitOnP (· == c)) (hd : d ∈ piece) :
        d ∈ e :: cs ∧ d ≠ c :=
      ⟨List.mem_cons_of_mem _ (ih h hd).1, (ih h hd).2⟩
    rw [List.splitOnP_cons_eq_if_modifyHead] at h
    split at h
    · rcases List.mem_cons.1 h with rfl | h
      · exact absurd hd List.not_mem_nil
      · exact hrest h hd
    · rename_i he
      -- The first piece of the rest gets the character `e` at its front.
      obtain ⟨first, others, hpieces⟩ :=
        List.exists_cons_of_ne_nil (List.splitOnP_ne_nil (· == c) cs)
      rw [hpieces, List.modifyHead_cons] at h
      rw [hpieces] at hrest
      rcases List.mem_cons.1 h with rfl | h
      · rcases List.mem_cons.1 hd with rfl | hd
        · exact ⟨List.mem_cons_self, fun hc => he (beq_iff_eq.2 hc)⟩
        · exact hrest List.mem_cons_self hd
      · exact hrest (List.mem_cons_of_mem _ h) hd

/-- All characters at the end that are to be dropped are dropped, up to one that is not. -/
theorem dropBack_append {p : Char → Bool} {cs dropped : List Char}
    (hdropped : ∀ c ∈ dropped, p c = true) (hlast : ∀ c ∈ cs.getLast?, p c = false) :
    dropBack p (cs ++ dropped) = cs := by
  have hall : ∀ c ∈ dropped.reverse, p c = true := fun c hc => hdropped c (List.mem_reverse.1 hc)
  have hstays : cs.rdropWhile p = cs := by
    rw [List.rdropWhile_eq_self_iff]
    intro hne
    rw [hlast _ (List.getLast?_eq_some_getLast hne)]
    exact Bool.false_ne_true
  calc dropBack p (cs ++ dropped) = ((dropped.reverse ++ cs.reverse).dropWhile p).reverse := by
        rw [dropBack, List.reverse_append]
    _ = cs.rdropWhile p := by rw [List.dropWhile_append_of_pos hall, List.rdropWhile]
    _ = cs := hstays

/-- A text is what is left of it and what is dropped, and no character that is to be dropped is at
the end of what is left. -/
theorem exists_dropBack (p : Char → Bool) (cs : List Char) :
    (∃ dropped, cs = dropBack p cs ++ dropped ∧ ∀ c ∈ dropped, p c = true) ∧
      ∀ c ∈ (dropBack p cs).getLast?, p c = false := by
  have hleft : dropBack p cs = cs.rdropWhile p := rfl
  rw [hleft]
  refine ⟨⟨cs.rtakeWhile p, List.rdropWhile_append_rtakeWhile.symm,
    fun c hc => List.mem_rtakeWhile_imp hc⟩, fun c hc => ?_⟩
  obtain ⟨hne, rfl⟩ := List.mem_getLast?_eq_getLast hc
  exact Bool.eq_false_iff.2 (List.rdropWhile_last_not _ _ hne)

end TraceGen.Text
