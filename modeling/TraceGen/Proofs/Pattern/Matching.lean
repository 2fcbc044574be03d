import Mathlib.Data.List.Basic
import TraceGen.Pattern.Search

/-!
# What matching means

`Expr.Matches` says from which place of a text to which one an expression matches, by the expression
alone. `Expr.has_reach` says that `Expr.reach` computes it: the places at which a match ends that
starts at a place of a set.

The point is the bound on repetitions. A match never goes back, so that among more matches in a row
than the text has places one stays where it is (`Power.exists_loop`). This one can be left out or
done once more, and therefore all higher counts reach the same places (`power_iff`).
-/

namespace TraceGen

/-! ## Sets of places -/

namespace Places

variable {a b s : Places} {text : List Char} {k : Nat}

/-- A place belongs to a set. -/
def Has (s : Places) (k : Nat) : Prop :=
  s[k]? = some true

/-- The places of a text of `n - 1` characters. -/
theorem Has.lt (h : Has s k) : k < s.length :=
  (List.getElem?_eq_some_iff.1 h).1

/-- A set has a place unless it is empty. -/
theorem any_iff : s.any id = true ↔ ∃ k, Has s k := by
  rw [List.any_eq_true]
  constructor
  · rintro ⟨x, hx, rfl⟩
    exact List.mem_iff_getElem?.1 hx
  · rintro ⟨k, hk⟩
    exact ⟨true, List.mem_of_getElem? hk, rfl⟩

/-- What sets that are put together place by place have. -/
theorem has_zipWith {f : Bool → Bool → Bool} (hlength : a.length = b.length)
    (hf : f false false = false) :
    Has (List.zipWith f a b) k ↔ f (a[k]? == some true) (b[k]? == some true) = true := by
  unfold Has
  rw [List.getElem?_zipWith]
  by_cases hk : k < a.length
  · have hk' : k < b.length := hlength ▸ hk
    rw [List.getElem?_eq_getElem hk, List.getElem?_eq_getElem hk']
    simp
  · have hk' : ¬ k < b.length := hlength ▸ hk
    rw [List.getElem?_eq_none (Nat.le_of_not_lt hk), List.getElem?_eq_none (Nat.le_of_not_lt hk')]
    simp [hf]

/-- The places of either set. -/
theorem has_union (hlength : a.length = b.length) : Has (union a b) k ↔ Has a k ∨ Has b k := by
  rw [union, has_zipWith hlength rfl]
  simp [Has]

/-- The places of both sets. -/
theorem has_inter (hlength : a.length = b.length) : Has (inter a b) k ↔ Has a k ∧ Has b k := by
  rw [inter, has_zipWith hlength rfl]
  simp [Has]

/-- The places of the first set only. -/
theorem has_without (hlength : a.length = b.length) :
    Has (without a b) k ↔ Has a k ∧ ¬ Has b k := by
  rw [without, has_zipWith hlength rfl]
  simp [Has]

/-- The place in front. -/
theorem has_start : Has (start text) k ↔ k = 0 := by
  cases k with
  | zero => simp [Has, start]
  | succ k => simp [Has, start, List.getElem?_replicate]

/-- All places. -/
theorem has_all : Has (all text) k ↔ k ≤ text.length := by
  cases k with
  | zero => simp [Has, all]
  | succ k =>
    rw [Nat.succ_le_iff]
    simp [Has, all, List.getElem?_replicate]

/-- The places behind a character of a class. -/
theorem has_advance {c : Char → Bool} :
    Has (advance c text s) k ↔ ∃ j, k = j + 1 ∧ Has s j ∧ ∃ x, text[j]? = some x ∧ c x = true := by
  cases k with
  | zero => simp [Has, advance]
  | succ k =>
    have hplace : Has (advance c text s) (k + 1) ↔
        Has s k ∧ ∃ x, text[k]? = some x ∧ c x = true := by
      unfold Has advance
      rw [List.getElem?_cons_succ, List.getElem?_zipWith]
      cases s[k]? with
      | none => simp
      | some b =>
        cases text[k]? with
        | none => simp
        | some x => simp
    rw [hplace]
    constructor
    · rintro ⟨hs, hx⟩
      exact ⟨k, rfl, hs, hx⟩
    · rintro ⟨j, hj, hs, hx⟩
      obtain rfl := Nat.succ.inj hj
      exact ⟨hs, hx⟩

/-- The neighbour before a place. -/
def before (text : List Char) : Nat → Option Char
  | 0 => Option.none
  | k + 1 => text[k]?

/-- The places whose neighbours meet a condition. -/
theorem has_whereNeighbours {condition : Option Char → Option Char → Bool} :
    Has (whereNeighbours condition text) k ↔
      k ≤ text.length ∧ condition (before text k) text[k]? = true := by
  unfold Has whereNeighbours
  rw [List.getElem?_zipWith]
  have hbehind : (text.map some ++ [Option.none])[k]? =
      if k ≤ text.length then some text[k]? else Option.none := by
    by_cases hk : k < text.length
    · rw [if_pos (Nat.le_of_lt hk), List.getElem?_append_left (by simpa using hk)]
      simp [hk]
    · by_cases hend : k = text.length
      · subst hend
        simp
      · rw [if_neg (by omega), List.getElem?_eq_none]
        simp
        omega
  have hfront : (Option.none :: text.map some)[k]? =
      if k ≤ text.length then some (before text k) else Option.none := by
    cases k with
    | zero => simp [before]
    | succ k =>
      rw [List.getElem?_cons_succ, List.getElem?_map, before]
      by_cases hk : k < text.length
      · rw [if_pos (by omega), List.getElem?_eq_getElem hk]
        rfl
      · rw [if_neg (by omega), List.getElem?_eq_none (Nat.le_of_not_lt hk)]
        rfl
  rw [hfront, hbehind]
  by_cases hk : k ≤ text.length
  · simp [hk]
  · simp [hk]

end Places

/-! ## Steps in a row -/

/-- A relation `n` times in a row. -/
def Power (R : Nat → Nat → Prop) : Nat → Nat → Nat → Prop
  | 0, i, j => j = i
  | n + 1, i, k => ∃ j, R i j ∧ Power R n j k

section Power

variable {R : Nat → Nat → Prop} {m n i j k : Nat}

/-- Steps in a row can be cut anywhere. -/
theorem power_add : Power R (m + n) i k ↔ ∃ j, Power R m i j ∧ Power R n j k := by
  induction m generalizing i with
  | zero => simp [Power]
  | succ m ih =>
    rw [Nat.succ_add, Power]
    simp only [ih, Power]
    constructor
    · rintro ⟨a, hia, j, haj, hjk⟩
      exact ⟨j, ⟨a, hia, haj⟩, hjk⟩
    · rintro ⟨j, ⟨a, hia, haj⟩, hjk⟩
      exact ⟨a, hia, j, haj, hjk⟩

/-- What each step keeps, steps in a row keep. -/
theorem Power.invariant {P : Nat → Prop} (hP : ∀ i j, P i → R i j → P j) (h : Power R n i k)
    (hi : P i) : P k := by
  induction n generalizing i with
  | zero =>
    obtain rfl : k = i := h
    exact hi
  | succ n ih =>
    obtain ⟨j, hij, hjk⟩ := h
    exact ih hjk (hP i j hi hij)

/-- Steps that do not go back do not go back in a row. -/
theorem Power.le (hR : ∀ i j, R i j → i ≤ j) (h : Power R n i k) : i ≤ k :=
  h.invariant (P := (i ≤ ·)) (fun j l hij hjl => Nat.le_trans hij (hR j l hjl)) (Nat.le_refl i)

/-- Among more steps than there is way to go one stays where it is. -/
theorem Power.exists_loop (hR : ∀ i j, R i j → i ≤ j) (h : Power R n i k) (hn : k < i + n) :
    ∃ a b l, n = a + 1 + b ∧ Power R a i l ∧ R l l ∧ Power R b l k := by
  induction n generalizing i with
  | zero =>
    have hle := h.le hR
    omega
  | succ n ih =>
    obtain ⟨j, hij, hjk⟩ := h
    by_cases hji : j = i
    · subst hji
      exact ⟨0, n, j, by omega, rfl, hij, hjk⟩
    · have hle := hR i j hij
      obtain ⟨a, b, l, rfl, hjl, hl, hlk⟩ := ih hjk (by omega)
      exact ⟨a + 1, b, l, by omega, ⟨j, hij, hjl⟩, hl, hlk⟩

/-- A step that stays where it is can be done once more. -/
theorem Power.succ (hR : ∀ i j, R i j → i ≤ j) (h : Power R n i k) (hn : k < i + n) :
    Power R (n + 1) i k := by
  obtain ⟨a, b, l, rfl, hil, hl, hlk⟩ := h.exists_loop hR hn
  have htwice : Power R (1 + b) l k := by
    rw [Nat.add_comm]
    exact ⟨l, hl, hlk⟩
  have hsum : a + 1 + b + 1 = a + (1 + (1 + b)) := by omega
  rw [hsum, power_add]
  refine ⟨l, hil, ?_⟩
  rw [Nat.add_comm]
  exact ⟨l, hl, htwice⟩

/-- A step that stays where it is can be left out. -/
theorem Power.pred (hR : ∀ i j, R i j → i ≤ j) (h : Power R (n + 1) i k) (hn : k < i + (n + 1)) :
    Power R n i k := by
  obtain ⟨a, b, l, hsum, hil, -, hlk⟩ := h.exists_loop hR hn
  obtain rfl : n = a + b := by omega
  exact power_add.2 ⟨l, hil, hlk⟩

/-- All high counts of steps reach the same places. -/
theorem power_iff (hR : ∀ i j, R i j → i ≤ j) (hm : k < i + m) (hn : m ≤ n) :
    Power R n i k ↔ Power R m i k := by
  obtain ⟨d, rfl⟩ := Nat.exists_eq_add_of_le hn
  clear hn
  induction d with
  | zero => exact Iff.rfl
  | succ d ih =>
    rw [← ih, ← Nat.add_assoc]
    exact ⟨fun h => h.pred hR (by omega), fun h => h.succ hR (by omega)⟩

/-- Counts of steps are bounded by the size of the way without loss. -/
theorem power_bounded_iff {size least : Nat} {most : Option Nat} (hR : ∀ i j, R i j → i ≤ j)
    (hk : k < i + size) :
    (∃ m ≤ most.elim size fun most => min (most - least) size,
        Power R (min least size + m) i k) ↔
      ∃ n, least ≤ n ∧ (∀ m ∈ most, n ≤ max least m) ∧ Power R n i k := by
  constructor
  · rintro ⟨m, hm, hpower⟩
    by_cases hleast : least ≤ size
    · rw [Nat.min_eq_left hleast] at hpower
      refine ⟨least + m, by omega, fun most hmost => ?_, hpower⟩
      rw [Option.mem_def.1 hmost, Option.elim_some] at hm
      omega
    · refine ⟨least, Nat.le_refl least, fun most _ => by omega, ?_⟩
      rw [Nat.min_eq_right (by omega), power_iff hR hk (by omega)] at hpower
      rwa [power_iff hR hk (by omega)]
  · rintro ⟨n, hn, hmost, hpower⟩
    by_cases hleast : least ≤ size
    · rw [Nat.min_eq_left hleast]
      by_cases hlong : n - least ≤ size
      · refine ⟨n - least, ?_, by rwa [Nat.add_sub_cancel' hn]⟩
        cases most with
        | none => exact hlong
        | some most =>
          have hle := hmost most rfl
          rw [Option.elim_some]
          omega
      · refine ⟨size, ?_, ?_⟩
        · cases most with
          | none => exact Nat.le_refl size
          | some most =>
            have hle := hmost most rfl
            rw [Option.elim_some]
            omega
        · rw [power_iff hR hk (by omega)] at hpower
          rwa [power_iff hR hk (by omega)]
    · refine ⟨0, Nat.zero_le _, ?_⟩
      rw [Nat.min_eq_right (by omega), Nat.add_zero]
      exact (power_iff hR hk (by omega)).1 hpower

end Power

namespace Places

variable {step : Places → Places} {R : Nat → Nat → Prop} {size n k : Nat}
  {s fresh seen : Places}

/-- A step takes the places of a set along a relation. -/
def Follows (size : Nat) (R : Nat → Nat → Prop) (step : Places → Places) : Prop :=
  ∀ s : Places, s.length = size →
    (step s).length = size ∧ ∀ k, Has (step s) k ↔ ∃ j, Has s j ∧ R j k

/-- Steps in a row. -/
theorem has_iterate (hstep : Follows size R step) (hs : s.length = size) :
    (iterate step n s).length = size ∧
      ∀ k, Has (iterate step n s) k ↔ ∃ j, Has s j ∧ Power R n j k := by
  induction n generalizing s with
  | zero => exact ⟨hs, fun k => by simp [iterate, Power]⟩
  | succ n ih =>
    obtain ⟨hlength, hhas⟩ := hstep s hs
    rw [iterate]
    by_cases hany : s.any id = true
    · rw [if_pos hany]
      obtain ⟨hlength', hhas'⟩ := ih hlength
      -- The first step is taken here, the others by the hypothesis.
      refine ⟨hlength', fun k => ?_⟩
      rw [hhas']
      simp only [hhas, Power]
      constructor
      · rintro ⟨j, ⟨i, hi, hij⟩, hjk⟩
        exact ⟨i, hi, j, hij, hjk⟩
      · rintro ⟨i, hi, j, hij, hjk⟩
        exact ⟨j, ⟨i, hi, hij⟩, hjk⟩
    · rw [if_neg hany]
      -- Nothing comes from nothing.
      rw [any_iff, not_exists] at hany
      refine ⟨hs, fun k => ?_⟩
      constructor
      · exact fun hk => absurd hk (hany k)
      · rintro ⟨j, hj, -⟩
        exact absurd hj (hany j)

/-- Up to `n` steps in a row. The places seen that are not fresh have been gone on from. -/
theorem has_closure (hstep : Follows size R step) (hfresh : fresh.length = size)
    (hseen : seen.length = size) (hsub : ∀ k, Has fresh k → Has seen k)
    (hdone : ∀ j k, Has seen j → ¬ Has fresh j → R j k → Has seen k) :
    (closure step n fresh seen).length = size ∧
      ∀ k, Has (closure step n fresh seen) k ↔ ∃ m ≤ n, ∃ j, Has seen j ∧ Power R m j k := by
  induction n generalizing fresh seen with
  | zero =>
    refine ⟨hseen, fun k => ?_⟩
    simp [closure, Power]
  | succ n ih =>
    obtain ⟨hlength, hhas⟩ := hstep fresh hfresh
    have hnext (k : Nat) :
        Has (without (step fresh) seen) k ↔ (∃ j, Has fresh j ∧ R j k) ∧ ¬ Has seen k := by
      rw [has_without (hlength.trans hseen.symm), hhas]
    have hnextlength : (without (step fresh) seen).length = size := by
      rw [without, List.length_zipWith, hlength, hseen, Nat.min_self]
    rw [closure]
    generalize without (step fresh) seen = next at hnext hnextlength
    by_cases hany : next.any id = true
    · rw [if_pos hany]
      have hunion (k : Nat) : Has (union seen next) k ↔ Has seen k ∨ Has next k :=
        has_union (hseen.trans hnextlength.symm)
      have hunionlength : (union seen next).length = size := by
        rw [union, List.length_zipWith, hnextlength, hseen, Nat.min_self]
      -- What follows a place seen has now been seen.
      have hgo {j k : Nat} (hj : Has seen j) (hjk : R j k) : Has (union seen next) k := by
        rw [hunion]
        by_cases hk : Has seen k
        · exact .inl hk
        · by_cases hjfresh : Has fresh j
          · exact .inr ((hnext k).2 ⟨⟨j, hjfresh, hjk⟩, hk⟩)
          · exact .inl (hdone j k hj hjfresh hjk)
      obtain ⟨hlength', hhas'⟩ := ih hnextlength hunionlength (fun k hk => (hunion k).2 (.inr hk))
        fun j k hj hjnext hjk => hgo (((hunion j).1 hj).resolve_right hjnext) hjk
      refine ⟨hlength', fun k => ?_⟩
      rw [hhas']
      constructor
      · rintro ⟨m, hm, j, hj, hjk⟩
        rcases (hunion j).1 hj with hj | hj
        · exact ⟨m, by omega, j, hj, hjk⟩
        · obtain ⟨⟨i, hi, hij⟩, -⟩ := (hnext j).1 hj
          exact ⟨m + 1, by omega, i, hsub i hi, j, hij, hjk⟩
      · rintro ⟨m, hm, j, hj, hjk⟩
        cases m with
        | zero => exact ⟨0, Nat.zero_le n, j, (hunion j).2 (.inl hj), hjk⟩
        | succ m =>
          obtain ⟨l, hjl, hlk⟩ := hjk
          exact ⟨m, by omega, l, hgo hj hjl, hlk⟩
    · rw [if_neg hany]
      rw [any_iff, not_exists] at hany
      -- Nothing new is reached, now or later.
      have hclosed (j l : Nat) (hj : Has seen j) (hjl : R j l) : Has seen l := by
        by_cases hjfresh : Has fresh j
        · by_contra hl
          exact hany l ((hnext l).2 ⟨⟨j, hjfresh, hjl⟩, hl⟩)
        · exact hdone j l hj hjfresh hjl
      refine ⟨hseen, fun k => ⟨fun hk => ⟨0, by omega, k, hk, rfl⟩, ?_⟩⟩
      rintro ⟨m, -, j, hj, hjk⟩
      exact hjk.invariant hclosed hj

/-- A repetition whose counts are bounded by the size follows the steps in a row. -/
theorem follows_repetition {least : Nat} {most : Option Nat} (hforward : ∀ i j, R i j → i ≤ j)
    (hstep : Follows size R step) :
    Follows size
      (fun i j => ∃ n, least ≤ n ∧ (∀ m ∈ most, n ≤ max least m) ∧ Power R n i j)
      fun s => closure step (most.elim size fun most => min (most - least) size)
        (iterate step (min least size) s) (iterate step (min least size) s) := by
  intro s hs
  obtain ⟨hlength, hbegun⟩ := has_iterate (n := min least size) hstep hs
  obtain ⟨hlength', hclosure⟩ :=
    has_closure (n := most.elim size fun most => min (most - least) size)
      hstep hlength hlength (fun _ hk => hk) fun _ _ hj hjfresh => absurd hj hjfresh
  refine ⟨hlength', fun k => ⟨fun hk => ?_, ?_⟩⟩
  · have hlt : k < size := hlength' ▸ hk.lt
    obtain ⟨m, hm, j, hj, hjk⟩ := (hclosure k).1 hk
    obtain ⟨i, hi, hij⟩ := (hbegun j).1 hj
    have hpower := power_add.2 ⟨j, hij, hjk⟩
    have hway : k < i + size := by omega
    exact ⟨i, hi, (power_bounded_iff hforward hway).1 ⟨m, hm, hpower⟩⟩
  · rintro ⟨i, hi, hmatches⟩
    obtain ⟨n, -, -, hpower⟩ := id hmatches
    -- The steps end inside the text, so that the bound on the counts applies.
    have hlt : k < size := by
      obtain ⟨hlengthn, hhas⟩ := has_iterate (n := n) hstep hs
      exact hlengthn ▸ ((hhas k).2 ⟨i, hi, hpower⟩).lt
    have hway : k < i + size := by omega
    obtain ⟨m, hm, hbounded⟩ := (power_bounded_iff hforward hway).2 hmatches
    obtain ⟨j, hij, hjk⟩ := power_add.1 hbounded
    exact (hclosure k).2 ⟨m, hm, j, (hbegun j).2 ⟨i, hi, hij⟩, hjk⟩

end Places

/-! ## Matches -/

namespace Expr

open Places (Has before)

/-- An expression matches the part of a text from the place `i` to the place `j`. A repetition is
done so many times as its counts allow, which are in order in a pattern that was read. -/
def Matches (text : List Char) : Expr → Nat → Nat → Prop
  | .empty, i, j => j = i
  | .chars c, i, j => j = i + 1 ∧ ∃ x, text[i]? = some x ∧ c.holds x = true
  | .look condition, i, j =>
    j = i ∧ i ≤ text.length ∧ condition (before text i) text[i]? = true
  | .seq a b, i, k => ∃ j, a.Matches text i j ∧ b.Matches text j k
  | .alt a b, i, j => a.Matches text i j ∨ b.Matches text i j
  | .times least most a, i, j => ∃ n, least ≤ n ∧ (∀ m ∈ most, n ≤ max least m) ∧
    Power (a.Matches text) n i j

variable {text : List Char} {e : Expr} {i j k : Nat}

/-- A match goes forward. -/
theorem Matches.le (h : e.Matches text i j) : i ≤ j := by
  induction e generalizing i j with
  | empty => exact Nat.le_of_eq h.symm
  | chars c =>
    obtain ⟨rfl, -⟩ := h
    exact Nat.le_succ i
  | look condition => exact Nat.le_of_eq h.1.symm
  | seq a b iha ihb =>
    obtain ⟨l, hil, hlj⟩ := h
    exact Nat.le_trans (iha hil) (ihb hlj)
  | alt a b iha ihb => exact h.elim iha ihb
  | times least most a iha =>
    obtain ⟨n, -, -, hpower⟩ := h
    exact hpower.le fun _ _ => iha

/-- The places that a search reaches are the ends of the matches. -/
theorem has_reach (e : Expr) :
    Places.Follows (text.length + 1) (e.Matches text) (e.reach text) := by
  induction e with
  | empty => exact fun s hs => ⟨hs, fun k => by simp [reach, Matches]⟩
  | chars c =>
    refine fun s hs => ⟨by simp [reach, Places.advance, hs], fun k => ?_⟩
    rw [reach, Places.has_advance]
    simp only [Matches]
    constructor
    · rintro ⟨j, hk, hj, hx⟩
      exact ⟨j, hj, hk, hx⟩
    · rintro ⟨j, hj, hk, hx⟩
      exact ⟨j, hk, hj, hx⟩
  | look condition =>
    have hlength : (Places.whereNeighbours condition text).length = text.length + 1 := by
      simp [Places.whereNeighbours]
    refine fun s hs => ⟨by simp [reach, Places.inter, hs, hlength], fun k => ?_⟩
    rw [reach, Places.has_inter (hs.trans hlength.symm), Places.has_whereNeighbours]
    simp only [Matches]
    constructor
    · rintro ⟨hk, hcondition⟩
      exact ⟨k, hk, rfl, hcondition⟩
    · rintro ⟨j, hj, rfl, hcondition⟩
      exact ⟨hj, hcondition⟩
  | seq a b iha ihb =>
    intro s hs
    obtain ⟨hlengtha, hhasa⟩ := iha s hs
    obtain ⟨hlengthb, hhasb⟩ := ihb _ hlengtha
    refine ⟨hlengthb, fun k => ?_⟩
    rw [reach, hhasb]
    simp only [hhasa, Matches]
    constructor
    · rintro ⟨j, ⟨i, hi, hij⟩, hjk⟩
      exact ⟨i, hi, j, hij, hjk⟩
    · rintro ⟨i, hi, j, hij, hjk⟩
      exact ⟨j, ⟨i, hi, hij⟩, hjk⟩
  | alt a b iha ihb =>
    intro s hs
    obtain ⟨hlengtha, hhasa⟩ := iha s hs
    obtain ⟨hlengthb, hhasb⟩ := ihb s hs
    refine ⟨by simp [reach, Places.union, hlengtha, hlengthb], fun k => ?_⟩
    rw [reach, Places.has_union (hlengtha.trans hlengthb.symm), hhasa, hhasb, ← exists_or]
    simp only [Matches, and_or_left]
  | times least most a iha =>
    have hreach : (times least most a).reach text = fun s =>
        Places.closure (a.reach text)
          (most.elim (text.length + 1) fun most => min (most - least) (text.length + 1))
          (Places.iterate (a.reach text) (min least (text.length + 1)) s)
          (Places.iterate (a.reach text) (min least (text.length + 1)) s) := by
      funext s
      cases most <;> rfl
    rw [hreach]
    exact Places.follows_repetition (fun _ _ => Matches.le) iha

/-- A text has a match from its front if the expression matches a first part of it. -/
theorem matchesFront_iff : e.matchesFront text = true ↔ ∃ k, e.Matches text 0 k := by
  have hlength : (Places.start text).length = text.length + 1 := by simp [Places.start]
  rw [matchesFront, Places.any_iff]
  simp only [(has_reach e _ hlength).2, Places.has_start, exists_eq_left]

/-- A text has a match if the expression matches some part of it. -/
theorem occursIn_iff :
    e.occursIn text = true ↔ ∃ i k, i ≤ text.length ∧ e.Matches text i k := by
  have hlength : (Places.all text).length = text.length + 1 := by simp [Places.all]
  rw [occursIn, Places.any_iff]
  simp only [(has_reach e _ hlength).2, Places.has_all]
  exact exists_comm

end Expr

end TraceGen
