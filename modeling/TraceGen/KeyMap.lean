/-!
# Maps with text keys

A `KeyMap` holds its entries in strictly increasing order of the key, so that two maps with the same
entries are equal and a walk over the entries is in byte order. The order of texts by character is
the order of their bytes in UTF-8. `put` and `erase` act on plain lists too, where they keep the
order (`sorted_put`, `sorted_erase`).
-/

namespace TraceGen

namespace Entries

variable {α β : Type}

/-- Strictly increasing keys. -/
def Sorted (es : List (String × α)) : Prop :=
  es.Pairwise (fun a b => a.1 < b.1)

/-- Sets the value at a key. -/
def put (k : String) (v : α) : List (String × α) → List (String × α)
  | [] => [(k, v)]
  | (a, w) :: es =>
    if k < a then (k, v) :: (a, w) :: es
    else if a < k then (a, w) :: put k v es
    else (k, v) :: es

/-- The value at a key. -/
def find? (k : String) : List (String × α) → Option α
  | [] => none
  | (a, w) :: es => if a = k then some w else find? k es

/-- Drops the entry at a key. -/
def erase (k : String) : List (String × α) → List (String × α)
  | [] => []
  | (a, w) :: es => if a = k then es else (a, w) :: erase k es

/-- A key of the list after `put` is the new one or an old one. -/
theorem mem_put_key {k : String} {v : α} {es : List (String × α)} {e : String × α}
    (h : e ∈ put k v es) : e.1 = k ∨ e ∈ es := by
  induction es with
  | nil => simp_all [put]
  | cons a es ih =>
    unfold put at h
    split at h
    · simp only [List.mem_cons] at h ⊢
      rcases h with rfl | h | h <;> simp_all
    · split at h <;> simp only [List.mem_cons] at h ⊢
      · rcases h with rfl | h
        · simp
        · rcases ih h with h | h <;> simp_all
      · rcases h with rfl | h <;> simp_all

/-- Setting a value keeps the keys in order. -/
theorem sorted_put {k : String} {v : α} {es : List (String × α)} (h : Sorted es) :
    Sorted (put k v es) := by
  induction es with
  | nil => simp [put, Sorted]
  | cons a es ih =>
    have h' := List.pairwise_cons.1 h
    unfold put
    split
    · rename_i hk
      refine List.pairwise_cons.2 ⟨fun e he => ?_, h⟩
      rcases List.mem_cons.1 he with rfl | he
      · exact hk
      · exact String.lt_trans hk (h'.1 e he)
    · split
      · rename_i hk
        refine List.pairwise_cons.2 ⟨fun e he => ?_, ih h'.2⟩
        rcases mem_put_key he with he | he
        · simpa [he] using hk
        · exact h'.1 e he
      · rename_i h₁ h₂
        have : a.1 = k :=
          String.le_antisymm (String.not_lt.1 h₁) (String.not_lt.1 h₂)
        refine List.pairwise_cons.2 ⟨fun e he => ?_, h'.2⟩
        simpa [← this] using h'.1 e he

/-- Dropping an entry gives a sublist. -/
theorem erase_sublist (k : String) (es : List (String × α)) : (erase k es).Sublist es := by
  induction es with
  | nil => simp [erase]
  | cons a es ih =>
    unfold erase
    split
    · exact List.sublist_cons_self _ _
    · exact ih.cons_cons _

/-- Dropping an entry keeps the keys in order. -/
theorem sorted_erase {k : String} {es : List (String × α)} (h : Sorted es) :
    Sorted (erase k es) :=
  List.Pairwise.sublist (erase_sublist k es) h

/-- A change of the values keeps the keys in order. -/
theorem sorted_map {f : String → α → β} {es : List (String × α)} (h : Sorted es) :
    Sorted (es.map fun e => (e.1, f e.1 e.2)) := by
  simpa [Sorted, List.pairwise_map] using h

end Entries

/-- A finite map from texts, its entries in order of the key. -/
structure KeyMap (α : Type) where
  /-- The entries in order. -/
  entries : List (String × α)
  /-- The keys increase strictly. -/
  sorted : Entries.Sorted entries

namespace KeyMap

variable {α β : Type}

instance [DecidableEq α] : DecidableEq (KeyMap α) := fun a b =>
  if h : a.entries = b.entries then isTrue (by cases a; cases b; cases h; rfl)
  else isFalse (fun e => h (e ▸ rfl))

/-- The map without entries. -/
def empty : KeyMap α :=
  ⟨[], List.Pairwise.nil⟩

instance : Inhabited (KeyMap α) := ⟨empty⟩

/-- Sets the value at a key. -/
def insert (k : String) (v : α) (m : KeyMap α) : KeyMap α :=
  ⟨Entries.put k v m.entries, Entries.sorted_put m.sorted⟩

/-- The value at a key. -/
def get? (m : KeyMap α) (k : String) : Option α :=
  Entries.find? k m.entries

/-- Drops the entry at a key. -/
def erase (k : String) (m : KeyMap α) : KeyMap α :=
  ⟨Entries.erase k m.entries, Entries.sorted_erase m.sorted⟩

/-- Changes every value. -/
def map (f : String → α → β) (m : KeyMap α) : KeyMap β :=
  ⟨m.entries.map fun e => (e.1, f e.1 e.2), Entries.sorted_map m.sorted⟩

/-- The map of a list of entries; of entries with one key the last counts. -/
def ofList (es : List (String × α)) : KeyMap α :=
  es.foldl (fun m e => m.insert e.1 e.2) empty

/-- The keys in order. -/
def keys (m : KeyMap α) : List String :=
  m.entries.map (·.1)

/-- The number of entries. -/
def size (m : KeyMap α) : Nat :=
  m.entries.length

/-- Whether there are no entries. -/
def isEmpty (m : KeyMap α) : Bool :=
  m.entries.isEmpty

/-- Two maps with the same entries are equal. -/
@[ext] theorem ext_entries {a b : KeyMap α} (h : a.entries = b.entries) : a = b := by
  cases a; cases b; cases h; rfl

end KeyMap

end TraceGen
