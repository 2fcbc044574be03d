import Mathlib.Data.List.Nodup
import TraceGen.KeyMap

/-!
# Looking up keys

A map is known by what it holds at each key: `KeyMap.mem_entries_iff` ties its entries to lookups,
and `KeyMap.entries_eq_of_mem_iff` says that a sorted list with the same members is the list of
entries. The lemmas on `insert` and `erase` say that they change one key and leave the others alone.
-/

namespace TraceGen

namespace Entries

variable {α : Type}

/-- Sorted entries have different keys. -/
theorem Sorted.nodup {es : List (String × α)} (h : Sorted es) : (es.map (·.1)).Nodup := by
  rw [List.Nodup, List.pairwise_map]
  refine h.imp fun {a b} hlt heq => ?_
  rw [heq] at hlt
  exact String.lt_irrefl _ hlt

/-- A lookup fails exactly at a key that no entry has. -/
theorem find?_eq_none_iff {k : String} {es : List (String × α)} :
    find? k es = none ↔ k ∉ es.map (·.1) := by
  induction es with
  | nil => simp [find?]
  | cons e es ih =>
    unfold find?
    by_cases h : e.1 = k
    · simp [h]
    · simp [h, ih, Ne.symm h]

/-- In sorted entries a lookup finds the entry with its key. -/
theorem mem_iff_find? {k : String} {v : α} {es : List (String × α)} (h : Sorted es) :
    (k, v) ∈ es ↔ find? k es = some v := by
  induction es with
  | nil => simp [find?]
  | cons e es ih =>
    obtain ⟨a, w⟩ := e
    obtain ⟨hleast, hrest⟩ := List.pairwise_cons.1 h
    unfold find?
    by_cases ha : a = k
    · subst ha
      have hnot : (a, v) ∉ es := fun hmem => String.lt_irrefl _ (hleast (a, v) hmem)
      simp [hnot, eq_comm]
    · rw [if_neg ha, ← ih hrest, List.mem_cons, Prod.mk.injEq]
      exact or_iff_right fun heq => ha heq.1.symm

/-- Setting a value changes what is found at its key. -/
theorem find?_put (k a : String) (v : α) (es : List (String × α)) :
    find? a (put k v es) = if a = k then some v else find? a es := by
  induction es with
  | nil => simp [put, find?, eq_comm]
  | cons e es ih =>
    obtain ⟨b, w⟩ := e
    unfold put
    -- The new entry stands before the first one, behind it, or in its place.
    split
    · simp [find?, eq_comm]
    · rename_i hkb
      split
      · rename_i hbk
        have hne : b ≠ k := fun heq => String.lt_irrefl _ (heq ▸ hbk)
        unfold find?
        by_cases hb : b = a
        · subst hb
          rw [if_pos rfl, if_pos rfl, if_neg hne]
        · rw [if_neg hb, if_neg hb, ih]
      · rename_i hbk
        have heq : b = k := String.le_antisymm (String.not_lt.1 hkb) (String.not_lt.1 hbk)
        subst heq
        unfold find?
        by_cases hb : b = a
        · rw [if_pos hb, if_pos hb.symm]
        · rw [if_neg hb, if_neg (Ne.symm hb), if_neg hb]

/-- Dropping the entry of a key changes what is found at that key. -/
theorem find?_erase (k a : String) {es : List (String × α)} (h : Sorted es) :
    find? a (erase k es) = if a = k then none else find? a es := by
  induction es with
  | nil => simp [erase, find?]
  | cons e es ih =>
    obtain ⟨b, w⟩ := e
    obtain ⟨hleast, hrest⟩ := List.pairwise_cons.1 h
    unfold erase
    by_cases hb : b = k
    · subst hb
      rw [if_pos rfl]
      by_cases ha : a = b
      · subst ha
        rw [if_pos rfl, find?_eq_none_iff]
        exact (List.nodup_cons.1 h.nodup).1
      · rw [if_neg ha, find?, if_neg (Ne.symm ha)]
    · rw [if_neg hb, find?, find?, ih hrest]
      by_cases ha : b = a
      · subst ha
        rw [if_pos rfl, if_neg hb, if_pos rfl]
      · rw [if_neg ha, if_neg ha]

/-- Changing the values changes what is found in the same way. -/
theorem find?_map {β : Type} (f : String → α → β) (k : String) (es : List (String × α)) :
    find? k (es.map fun e => (e.1, f e.1 e.2)) = (find? k es).map (f k) := by
  induction es with
  | nil => rfl
  | cons e es ih =>
    rw [List.map_cons, find?, find?]
    by_cases h : e.1 = k
    · rw [if_pos h, if_pos h, h]
      rfl
    · rw [if_neg h, if_neg h, ih]

end Entries

namespace KeyMap

variable {α β : Type} {m : KeyMap α}

/-- Different entries have different keys. -/
theorem nodup_keys (m : KeyMap α) : m.keys.Nodup :=
  Entries.Sorted.nodup m.sorted

/-- An entry is what is found at its key. -/
theorem mem_entries_iff {k : String} {v : α} : (k, v) ∈ m.entries ↔ m.get? k = some v :=
  Entries.mem_iff_find? m.sorted

/-- A lookup fails exactly at what is not a key. -/
theorem get?_eq_none_iff {k : String} : m.get? k = none ↔ k ∉ m.keys :=
  Entries.find?_eq_none_iff

/-- Where something is found there is a key. -/
theorem mem_keys_of_get? {k : String} {v : α} (h : m.get? k = some v) : k ∈ m.keys := by
  by_contra hnot
  rw [get?_eq_none_iff.2 hnot] at h
  cases h

/-- Setting a value changes one key. -/
theorem get?_insert (m : KeyMap α) (k a : String) (v : α) :
    (m.insert k v).get? a = if a = k then some v else m.get? a :=
  Entries.find?_put k a v m.entries

/-- Dropping an entry changes one key. -/
theorem get?_erase (m : KeyMap α) (k a : String) :
    (m.erase k).get? a = if a = k then none else m.get? a :=
  Entries.find?_erase k a m.sorted

/-- Setting the value of a key adds no other key. -/
theorem mem_keys_insert {k a : String} {v : α} : a ∈ (m.insert k v).keys ↔ a = k ∨ a ∈ m.keys := by
  rw [← not_iff_not, ← get?_eq_none_iff, get?_insert, not_or, ← get?_eq_none_iff]
  by_cases h : a = k <;> simp [h]

/-- Dropping an entry drops its key only. -/
theorem mem_keys_erase {k a : String} : a ∈ (m.erase k).keys ↔ a ≠ k ∧ a ∈ m.keys := by
  rw [← not_iff_not, ← get?_eq_none_iff, get?_erase, not_and, ← get?_eq_none_iff]
  by_cases h : a = k <;> simp [h]

/-- Changing the values keeps the keys. -/
theorem keys_map (f : String → α → β) (m : KeyMap α) : (m.map f).keys = m.keys := by
  simp [keys, map]

/-- Changing the values changes what is found at each key. -/
theorem get?_map (f : String → α → β) (m : KeyMap α) (k : String) :
    (m.map f).get? k = (m.get? k).map (f k) :=
  Entries.find?_map f k m.entries

/-- Sorted entries with the members of a map are its entries. -/
theorem entries_eq_of_mem_iff {es : List (String × α)} (h : Entries.Sorted es)
    (hmem : ∀ k v, m.get? k = some v ↔ (k, v) ∈ es) : m.entries = es := by
  have hperm : m.entries.Perm es := by
    have hm : m.entries.Nodup := List.Nodup.of_map Prod.fst m.nodup_keys
    have hes : es.Nodup := List.Nodup.of_map Prod.fst h.nodup
    refine (List.perm_ext_iff_of_nodup hm hes).2 ?_
    rintro ⟨k, v⟩
    rw [mem_entries_iff, hmem]
  refine hperm.eq_of_pairwise (fun a b _ _ hab hba => ?_) m.sorted h
  exact absurd (String.lt_trans hab hba) (String.lt_irrefl _)

end KeyMap

end TraceGen
