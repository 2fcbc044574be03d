import TraceGen.Pool.Envelope
import TraceGen.Proofs.Training.Lookup

/-!
# Keeping the rows of some keys

A filter keeps the rows whose keys it selects, and each row takes the baseline of its key with it.
`ModuleData.claimStats_eq_ok_iff` says when keys can take their baselines and what they take, and
`ModuleData.entries_of_retainKeys` what a filter keeps: the baselines of keys that have no row go.

Where each key comes once and has a baseline (`ModuleData.Sound`) every filter can keep what it
selects (`ModuleData.Sound.exists_retainKeys`).
-/

namespace TraceGen

/-- Two steps give a value if the first gives one with which the second does. -/
theorem Except.bind_eq_ok_iff {ε α β : Type} {x : Except ε α} {g : α → Except ε β} {b : β} :
    (x >>= g) = .ok b ↔ ∃ a, x = .ok a ∧ g a = .ok b := by
  cases x with
  | error e =>
    constructor
    · rintro ⟨⟩
    · rintro ⟨a, ⟨⟩, -⟩
  | ok a =>
    constructor
    · intro h
      exact ⟨a, rfl, h⟩
    · rintro ⟨_, ⟨⟩, h⟩
      exact h

/-- Two steps fail if the first does, or if it gives a value with which the second does. -/
theorem Except.bind_eq_error_iff {ε α β : Type} {x : Except ε α} {g : α → Except ε β} {e : ε} :
    (x >>= g) = .error e ↔ x = .error e ∨ ∃ a, x = .ok a ∧ g a = .error e := by
  cases x with
  | error cause =>
    constructor
    · rintro ⟨⟩
      exact .inl rfl
    · rintro (⟨⟨⟩⟩ | ⟨a, ⟨⟩, -⟩)
      rfl
  | ok a =>
    constructor
    · intro h
      exact .inr ⟨a, rfl, h⟩
    · rintro (⟨⟨⟩⟩ | ⟨_, ⟨⟩, h⟩)
      exact h

namespace ModuleData

variable {keys : List String} {stats claimed : RewardStats} {d kept : ModuleData} {f : NameFilter}

/-- The first key takes its baseline, and the other keys take theirs from what is left. -/
theorem claimStats_cons {key : String} :
    claimStats (key :: keys) stats = .ok claimed ↔
      ∃ stat rest, stats.get? key = some stat ∧ claimStats keys (stats.erase key) = .ok rest ∧
        claimed = rest.insert key stat := by
  rw [claimStats]
  cases hstat : stats.get? key with
  | none => simp
  | some stat =>
    rw [Except.bind_eq_ok_iff]
    constructor
    · rintro ⟨rest, hrest, hclaimed⟩
      exact ⟨stat, rest, rfl, hrest, (Except.ok.inj hclaimed).symm⟩
    · rintro ⟨_, rest, ⟨⟩, hrest, rfl⟩
      exact ⟨rest, hrest, rfl⟩

/-- Keys can take their baselines if each has one and none comes twice. -/
theorem exists_claimStats_iff :
    (∃ claimed, claimStats keys stats = .ok claimed) ↔
      keys.Nodup ∧ ∀ k ∈ keys, k ∈ stats.keys := by
  induction keys generalizing stats with
  | nil => simp [claimStats]
  | cons key keys ih =>
    rw [List.nodup_cons, List.forall_mem_cons]
    constructor
    · rintro ⟨claimed, h⟩
      obtain ⟨stat, rest, hstat, hrest, -⟩ := claimStats_cons.1 h
      obtain ⟨hnodup, hmem⟩ := ih.1 ⟨rest, hrest⟩
      -- A key that comes again finds its baseline gone.
      have hleft : ∀ k ∈ keys, k ≠ key ∧ k ∈ stats.keys := fun k hk =>
        KeyMap.mem_keys_erase.1 (hmem k hk)
      exact ⟨⟨fun hkey => (hleft key hkey).1 rfl, hnodup⟩, KeyMap.mem_keys_of_get? hstat,
        fun k hk => (hleft k hk).2⟩
    · rintro ⟨⟨hkey, hnodup⟩, hfirst, hmem⟩
      obtain ⟨stat, hstat⟩ : ∃ stat, stats.get? key = some stat := by
        refine Option.ne_none_iff_exists'.1 fun hnone => ?_
        exact KeyMap.get?_eq_none_iff.1 hnone hfirst
      have hleft : ∀ k ∈ keys, k ∈ (stats.erase key).keys := by
        intro k hk
        refine KeyMap.mem_keys_erase.2 ⟨?_, hmem k hk⟩
        rintro rfl
        exact hkey hk
      obtain ⟨rest, hrest⟩ := ih.2 ⟨hnodup, hleft⟩
      exact ⟨_, claimStats_cons.2 ⟨stat, rest, hstat, hrest, rfl⟩⟩

/-- What keys take is what was at these keys. -/
theorem get?_claimStats (h : claimStats keys stats = .ok claimed) (k : String) :
    claimed.get? k = if k ∈ keys then stats.get? k else none := by
  induction keys generalizing stats claimed with
  | nil =>
    cases h
    rfl
  | cons key keys ih =>
    obtain ⟨stat, rest, hstat, hrest, rfl⟩ := claimStats_cons.1 h
    rw [KeyMap.get?_insert, ih hrest, KeyMap.get?_erase]
    by_cases hk : k = key
    · subst hk
      rw [if_pos rfl, if_pos List.mem_cons_self, hstat]
    · rw [if_neg hk, if_neg hk]
      simp only [List.mem_cons, hk, false_or]

/-- When keys can take their baselines, and the entries that they take. -/
theorem claimStats_eq_ok_iff :
    claimStats keys stats = .ok claimed ↔
      (keys.Nodup ∧ ∀ k ∈ keys, k ∈ stats.keys) ∧
        claimed.entries = stats.entries.filter fun e => e.1 ∈ keys := by
  have hentries {taken : RewardStats} (h : claimStats keys stats = .ok taken) :
      taken.entries = stats.entries.filter fun e => e.1 ∈ keys := by
    refine KeyMap.entries_eq_of_mem_iff (stats.sorted.sublist List.filter_sublist) fun k v => ?_
    rw [get?_claimStats h, List.mem_filter, KeyMap.mem_entries_iff, decide_eq_true_iff]
    by_cases hk : k ∈ keys <;> simp [hk]
  constructor
  · intro h
    exact ⟨exists_claimStats_iff.1 ⟨claimed, h⟩, hentries h⟩
  · rintro ⟨hkeys, hclaimed⟩
    obtain ⟨taken, htaken⟩ := exists_claimStats_iff.2 hkeys
    rw [htaken, KeyMap.ext_entries ((hentries htaken).trans hclaimed.symm)]

/-- The rows that a filter selects. -/
def selected (d : ModuleData) (f : NameFilter) : List DataRow :=
  d.rows.filter fun row => f.selects row.key

/-- Rows are kept by letting their keys take their baselines. -/
theorem retainKeys_eq_ok_iff_claimStats :
    d.retainKeys f = .ok kept ↔
      claimStats ((d.selected f).map (·.key)) d.stats = .ok kept.stats ∧
        kept.rows = d.selected f ∧ kept.modelId = d.modelId := by
  obtain ⟨rows, stats, modelId⟩ := kept
  rw [retainKeys, ← selected, Except.bind_eq_ok_iff]
  constructor
  · rintro ⟨claimed, hclaimed, h⟩
    cases h
    exact ⟨hclaimed, rfl, rfl⟩
  · rintro ⟨hclaimed, rfl, rfl⟩
    exact ⟨stats, hclaimed, rfl⟩

/-- The keys of the selected rows are the keys that the filter selects. -/
theorem keys_selected (d : ModuleData) (f : NameFilter) :
    (d.selected f).map (·.key) = d.keys.filter f.selects := by
  rw [selected, keys, List.filter_map]
  rfl

/-- The keys of the selected rows. -/
theorem mem_keys_selected {k : String} :
    k ∈ (d.selected f).map (·.key) ↔ f.selects k = true ∧ k ∈ d.keys := by
  rw [keys_selected, List.mem_filter, and_comm]

/-- The rows of a filter can be kept if their keys are different and have baselines. -/
theorem exists_retainKeys_iff : (∃ kept, d.retainKeys f = .ok kept) ↔
    (d.keys.filter f.selects).Nodup ∧ ∀ k ∈ d.keys.filter f.selects, k ∈ d.stats.keys := by
  rw [← keys_selected, ← exists_claimStats_iff]
  constructor
  · rintro ⟨kept, hkept⟩
    exact ⟨kept.stats, (retainKeys_eq_ok_iff_claimStats.1 hkept).1⟩
  · rintro ⟨claimed, hclaimed⟩
    exact ⟨⟨d.selected f, claimed, d.modelId⟩,
      retainKeys_eq_ok_iff_claimStats.2 ⟨hclaimed, rfl, rfl⟩⟩

/-- What is kept: the selected rows, and the baselines at their keys. -/
theorem entries_of_retainKeys (h : d.retainKeys f = .ok kept) :
    kept.rows = d.selected f ∧ kept.modelId = d.modelId ∧
      kept.stats.entries =
        d.stats.entries.filter fun e => f.selects e.1 && decide (e.1 ∈ d.keys) := by
  obtain ⟨hclaim, hrows, hmodel⟩ := retainKeys_eq_ok_iff_claimStats.1 h
  refine ⟨hrows, hmodel, (claimStats_eq_ok_iff.1 hclaim).2.trans ?_⟩
  refine List.filter_congr fun e _ => ?_
  rw [Bool.eq_iff_iff, Bool.and_eq_true, decide_eq_true_iff, decide_eq_true_iff, mem_keys_selected]

/-- Each key comes once and has a baseline. -/
structure Sound (d : ModuleData) : Prop where
  /-- No key comes twice. -/
  nodup : d.keys.Nodup
  /-- Each key has a baseline. -/
  covered : ∀ k ∈ d.keys, k ∈ d.stats.keys

/-- Of sound data every filter can keep the rows that it selects. -/
theorem Sound.exists_retainKeys (h : d.Sound) (f : NameFilter) :
    ∃ kept, d.retainKeys f = .ok kept := by
  refine exists_retainKeys_iff.2 ⟨h.nodup.filter _, fun k hk => ?_⟩
  exact h.covered k (List.mem_filter.1 hk).1

end ModuleData

/-- Sound data is reported whatever the filter. -/
theorem Envelope.isSuccess_ofData {d : ModuleData} (h : d.Sound) (keyFilter : Option NameFilter)
    (name : String) : (ofData keyFilter name d).isSuccess = true := by
  cases keyFilter with
  | none => rfl
  | some f =>
    obtain ⟨kept, hkept⟩ := h.exists_retainKeys f
    simp only [ofData, hkept, isSuccess]

end TraceGen
