import Mathlib.Data.List.Forall2
import Mathlib.Data.List.Nodup
import TraceGen.Settings.Overlay

/-!
# Overlaid mappings, key by key

Merging and binding both set entries one after the other (`Mapping.merge_cons`,
`Mapping.exists_put_of_setPath?`). So what a mapping holds at a key afterwards can be told from what
it held there before: `Mapping.get?_put` and `Mapping.get?_merge`.

Two mappings are alike (`Mapping.Alike`) if they have the same keys in the same order and differ at
most where both hold a mapping. Overlaying carries this on, whether nested mappings are merged or
replaced (`Mapping.Alike.merge`). It is all that matters to a reader who does not accept nested
mappings.
-/

namespace TraceGen

open Yaml (Node)

namespace Yaml.Node

/-- Whether a value is a mapping. -/
def isMapping : Node → Bool
  | .mapping _ => true
  | _ => false

/-- A mapping has entries. -/
theorem exists_of_isMapping {v : Node} (h : v.isMapping = true) : ∃ es, v = .mapping es := by
  cases v with
  | mapping es => exact ⟨es, rfl⟩
  | null | bool | number | text | sequence | tagged => cases h

/-- Two values are the same, or both are mappings. -/
def Alike (v w : Node) : Prop :=
  v = w ∨ v.isMapping = true ∧ w.isMapping = true

end Yaml.Node

namespace Mapping

variable {m m' overlay : Mapping} {key k value : Node}

/-! ## Setting an entry -/

/-- What was set is found, and at the other keys what was there. -/
theorem get?_put (key value k : Node) (m : Mapping) :
    get? k (put key value m) = if key = k then some value else get? k m := by
  induction m with
  | nil => rfl
  | cons e m ih =>
    obtain ⟨l, v⟩ := e
    rw [put]
    by_cases hl : l = key
    · subst hl
      rw [if_pos rfl, get?, get?]
      by_cases hk : l = k
      · rw [if_pos hk, if_pos hk]
      · rw [if_neg hk, if_neg hk, if_neg hk]
    · rw [if_neg hl, get?, get?, ih]
      by_cases hk : l = k
      · have hkey : key ≠ k := fun h => hl (hk.trans h.symm)
        rw [if_pos hk, if_neg hkey, if_pos hk]
      · rw [if_neg hk, if_neg hk]

/-- What was set at a text is found there. -/
theorem get?_put_text (segment name : String) (value : Node) (m : Mapping) :
    get? (.text name) (put (.text segment) value m) =
      if segment = name then some value else get? (.text name) m := by
  simp only [get?_put, Node.text.injEq]

/-- An entry after one was set has its key, or was there. -/
theorem mem_put {e : Node × Node} (h : e ∈ put key value m) : e.1 = key ∨ e ∈ m := by
  induction m with
  | nil => exact .inl (by rw [List.mem_singleton.1 h])
  | cons a m ih =>
    obtain ⟨l, v⟩ := a
    rw [put] at h
    split at h
    · rename_i hl
      rcases List.mem_cons.1 h with rfl | h
      · exact .inl hl
      · exact .inr (List.mem_cons_of_mem _ h)
    · rcases List.mem_cons.1 h with rfl | h
      · exact .inr List.mem_cons_self
      · exact (ih h).imp_right (List.mem_cons_of_mem _)

/-- What is not a key has no value. -/
theorem get?_eq_none (h : k ∉ m.map (·.1)) : get? k m = none := by
  induction m with
  | nil => rfl
  | cons e m ih =>
    rw [List.map_cons, List.mem_cons, not_or] at h
    rw [get?, if_neg (Ne.symm h.1), ih h.2]

/-! ## Merging -/

/-- What a value becomes that is laid over the value at a key. -/
def laid (old : Option Node) (value : Node) : Node :=
  match old, value with
  | some (.mapping existing), .mapping nested => .mapping (merge existing nested)
  | _, value => value

/-- A value that is no mapping takes the place of what was there. -/
theorem laid_of_not_mapping (old : Option Node) (h : value.isMapping = false) :
    laid old value = value := by
  unfold laid
  split
  · cases h
  · rfl

/-- An entry is merged by setting what its value becomes. -/
theorem mergeEntry_eq (m : Mapping) (key value : Node) :
    mergeEntry m key value = put key (laid (get? key m) value) m := by
  cases value with
  | mapping nested =>
    rw [mergeEntry]
    split
    · rename_i existing hold
      rw [hold, laid]
    · rename_i hold
      unfold laid
      split
      · rename_i existing _ hsome _
        exact absurd hsome (hold existing)
      · rfl
  | null | bool | number | text | sequence | tagged => rw [mergeEntry, laid] <;> nofun

/-- Merging sets one entry after the other. -/
theorem merge_cons (m : Mapping) (key value : Node) (overlay : Mapping) :
    merge m ((key, value) :: overlay) = merge (put key (laid (get? key m) value) m) overlay := by
  rw [merge, mergeEntry_eq]

/-- At a key that is merged stands what its value becomes, and elsewhere what was there. -/
theorem get?_merge (hkeys : (overlay.map (·.1)).Nodup) (k : Node) (m : Mapping) :
    get? k (merge m overlay) =
      match get? k overlay with
      | none => get? k m
      | some value => some (laid (get? k m) value) := by
  induction overlay generalizing m with
  | nil => rw [merge, get?]
  | cons e overlay ih =>
    obtain ⟨key, value⟩ := e
    rw [List.map_cons, List.nodup_cons] at hkeys
    rw [merge_cons, ih hkeys.2, get?_put, get?]
    by_cases hk : key = k
    · -- The key does not come again.
      subst hk
      rw [if_pos rfl, if_pos rfl, get?_eq_none hkeys.1]
    · rw [if_neg hk, if_neg hk]

/-- An entry after merging has a key that was merged, or was there. -/
theorem mem_merge {e : Node × Node} (h : e ∈ merge m overlay) :
    (∃ e' ∈ overlay, e.1 = e'.1) ∨ e ∈ m := by
  induction overlay generalizing m with
  | nil =>
    rw [merge] at h
    exact .inr h
  | cons a overlay ih =>
    obtain ⟨key, value⟩ := a
    rw [merge_cons] at h
    rcases ih h with ⟨e', he', hkey⟩ | h
    · exact .inl ⟨e', List.mem_cons_of_mem _ he', hkey⟩
    · rcases mem_put h with hkey | h
      · exact .inl ⟨_, List.mem_cons_self, hkey⟩
      · exact .inr h

/-- A value stays what it is, unless it is a mapping. -/
theorem alike_laid (old : Option Node) (value : Node) : (laid old value).Alike value := by
  unfold laid
  split
  · exact .inr ⟨rfl, rfl⟩
  · exact .inl rfl

/-! ## Binding -/

/-- The mapping that a value is; without entries if it is none. -/
def inner (old : Option Node) : Mapping :=
  match old with
  | some (.mapping es) => es
  | _ => []

/-- A path of one segment is set by setting the entry there. -/
theorem setPath?_nil (value : Node) (m : Mapping) (segment : String) :
    setPath? value m segment [] = some (put (.text segment) value m) := by
  rw [setPath?]

/-- A longer path is set by setting its rest in the mapping at its first segment. -/
theorem setPath?_cons (value : Node) (m : Mapping) (segment next : String) (path : List String) :
    setPath? value m segment (next :: path) =
      if (get? (.text segment) m).any isTaggedMapping then none
      else (setPath? value (inner (get? (.text segment) m)) next path).map fun nested =>
        put (.text segment) (.mapping nested) m := by
  rw [setPath?]
  split
  · rename_i nested hold
    rw [hold, setPath?.descend]
    rfl
  · rename_i node hmapping hold
    have hinner : inner (some node) = [] := by
      unfold inner
      split
      · rename_i es hes
        exact (hmapping es (Option.some.inj hes)).elim
      · rfl
    rw [hold, hinner, Option.any_some, setPath?.descend]
  · rename_i hold
    rw [hold, setPath?.descend]
    rfl

/-- A longer path that could be set has its rest set in the mapping at its first segment. -/
theorem exists_of_setPath?_cons {segment next : String} {path : List String}
    (h : setPath? value m segment (next :: path) = some m') :
    ∃ nested, setPath? value (inner (get? (.text segment) m)) next path = some nested ∧
      m' = put (.text segment) (.mapping nested) m := by
  rw [setPath?_cons] at h
  split at h
  · cases h
  · obtain ⟨nested, hnested, rfl⟩ := Option.map_eq_some_iff.1 h
    exact ⟨nested, hnested, rfl⟩

/-- A path is set by setting the entry at its first segment: to the value, or to a mapping. -/
theorem exists_put_of_setPath? {segment : String} {path : List String}
    (h : setPath? value m segment path = some m') :
    ∃ v, m' = put (.text segment) v m ∧ (path = [] → v = value) ∧
      (path ≠ [] → v.isMapping = true) := by
  cases path with
  | nil =>
    rw [setPath?_nil] at h
    cases h
    exact ⟨value, rfl, fun _ => rfl, fun hne => absurd rfl hne⟩
  | cons next path =>
    obtain ⟨nested, -, rfl⟩ := exists_of_setPath?_cons h
    exact ⟨.mapping nested, rfl, nofun, fun _ => rfl⟩

/-! ## Alike mappings -/

/-- Two mappings have the same keys in the same order and alike values. -/
def Alike (m m' : Mapping) : Prop :=
  List.Forall₂ (fun e e' => e.1 = e'.1 ∧ e.2.Alike e'.2) m m'

/-- A mapping is like itself. -/
theorem Alike.refl (m : Mapping) : Alike m m := by
  unfold Alike
  exact List.forall₂_same.2 fun e _ => ⟨rfl, .inl rfl⟩

/-- Alike entries can be set in alike mappings. -/
theorem Alike.put {v w : Node} (h : Alike m m') (hv : v.Alike w) (key : Node) :
    Alike (put key v m) (Mapping.put key w m') := by
  induction h with
  | nil => exact .cons ⟨rfl, hv⟩ .nil
  | @cons e e' m m' he h ih =>
    obtain ⟨k, a⟩ := e
    obtain ⟨k', a'⟩ := e'
    obtain ⟨rfl, ha⟩ := he
    -- The keys are the same, so the value takes this place in both mappings or in none.
    unfold Mapping.put
    split
    · exact .cons ⟨rfl, hv⟩ h
    · exact .cons ⟨rfl, ha⟩ ih

/-- Merging is like setting all entries. -/
theorem Alike.merge (h : Alike m m') (overlay : Mapping) :
    Alike (merge m overlay) (overlay.foldl (fun es e => Mapping.put e.1 e.2 es) m') := by
  induction overlay generalizing m m' with
  | nil =>
    rw [Mapping.merge]
    exact h
  | cons e overlay ih =>
    obtain ⟨key, value⟩ := e
    rw [merge_cons, List.foldl_cons]
    exact ih (h.put (alike_laid _ value) key)

end Mapping

end TraceGen
