import Mathlib.Data.List.TakeWhile
import TraceGen.Proofs.Training.RowFilter

/-!
# Why rows cannot be kept

Each key that a filter selects takes its baseline with it, so that a key fails which has none, and
also a key that comes again. `ModuleData.claimStats_eq_error_iff` says which key is named then: the
first one that finds no baseline where it looks.

A filter should fail for missing baselines only. `ModuleData.retaining_fails` says that it does
exactly if the selected keys before the first one without a baseline are different. Otherwise it
names a key that has a baseline, and a module with complete data stops its worker
(`ModuleData.repeated_key_fails`).
-/

namespace TraceGen

/-- A step that gives no value fails. -/
theorem Except.exists_eq_error_iff {ε α : Type} {x : Except ε α} :
    (∃ e, x = .error e) ↔ ¬ ∃ a, x = .ok a := by
  cases x with
  | error e => exact ⟨fun _ => nofun, fun _ => ⟨e, rfl⟩⟩
  | ok a => exact ⟨nofun, fun h => absurd ⟨a, rfl⟩ h⟩

namespace ModuleData

variable {keys : List String} {stats : RewardStats} {e : CompilationError}

/-- The keys before the first one without a baseline. -/
def covered (stats : RewardStats) (keys : List String) : List String :=
  keys.takeWhile fun k => k ∈ stats.keys

/-- The first key without a baseline. -/
def firstLacking? (stats : RewardStats) (keys : List String) : Option String :=
  keys.find? fun k => k ∉ stats.keys

/-- Keys with baselines in front are covered. -/
theorem covered_append {before : List String} (h : ∀ k ∈ before, k ∈ stats.keys)
    (rest : List String) : covered stats (before ++ rest) = before ++ covered stats rest :=
  List.takeWhile_append_of_pos fun k hk => decide_eq_true (h k hk)

/-- Keys that all have baselines are covered. -/
theorem covered_eq_self (h : ∀ k ∈ keys, k ∈ stats.keys) : covered stats keys = keys := by
  rw [← List.append_nil keys, covered_append h, covered, List.takeWhile_nil]

/-- Nothing behind a key without a baseline is covered. -/
theorem covered_cons_of_lacking {key : String} (h : key ∉ stats.keys) (after : List String) :
    covered stats (key :: after) = [] :=
  List.takeWhile_cons_of_neg (by simpa using h)

/-- Covered keys have baselines. -/
theorem mem_keys_of_covered {key : String} (h : key ∈ covered stats keys) : key ∈ stats.keys := by
  have hholds := List.mem_takeWhile_imp h
  exact of_decide_eq_true hholds

/-- The first key without a baseline stands behind those that are covered. -/
theorem firstLacking?_eq_some_iff {key : String} :
    firstLacking? stats keys = some key ↔
      key ∉ stats.keys ∧ ∃ after, keys = covered stats keys ++ key :: after := by
  rw [firstLacking?, List.find?_eq_some_iff_append, decide_eq_true_iff]
  refine and_congr_right fun hlacks => ?_
  constructor
  · rintro ⟨before, after, rfl, hbefore⟩
    have hall : ∀ k ∈ before, k ∈ stats.keys := fun k hk => by simpa using hbefore k hk
    refine ⟨after, ?_⟩
    rw [covered_append hall, covered_cons_of_lacking hlacks, List.append_nil]
  · rintro ⟨after, hkeys⟩
    refine ⟨covered stats keys, after, hkeys, fun k hk => ?_⟩
    simpa using mem_keys_of_covered hk

/-- Keys fail at the first one that finds no baseline: it has none, or has already taken it. -/
theorem claimStats_eq_error_iff :
    claimStats keys stats = .error e ↔
      ∃ before key after, keys = before ++ key :: after ∧ before.Nodup ∧
        (∀ k ∈ before, k ∈ stats.keys) ∧ (key ∈ stats.keys → key ∈ before) ∧
        e = .missingRewardStat key := by
  induction keys generalizing stats with
  | nil => simp [claimStats]
  | cons first keys ih =>
    rw [claimStats]
    cases hstat : stats.get? first with
    | none =>
      have hfirst : first ∉ stats.keys := KeyMap.get?_eq_none_iff.1 hstat
      constructor
      · rintro ⟨⟩
        exact ⟨[], first, keys, rfl, List.nodup_nil, List.forall_mem_nil _,
          fun h => absurd h hfirst, rfl⟩
      · rintro ⟨before, key, after, hkeys, -, hbefore, -, rfl⟩
        -- Nothing stands before a key that has no baseline.
        cases before with
        | nil =>
          obtain ⟨rfl, -⟩ := List.cons_eq_cons.1 hkeys
          rfl
        | cons k before =>
          obtain ⟨rfl, -⟩ := List.cons_eq_cons.1 hkeys
          exact absurd (hbefore first List.mem_cons_self) hfirst
    | some stat =>
      have hfirst : first ∈ stats.keys := KeyMap.mem_keys_of_get? hstat
      have hrest : (claimStats keys (stats.erase first) >>= fun claimed =>
          .ok (claimed.insert first stat)) = .error e ↔
          claimStats keys (stats.erase first) = .error e := by
        rw [Except.bind_eq_error_iff]
        exact or_iff_left (by rintro ⟨_, -, ⟨⟩⟩)
      refine hrest.trans (ih.trans ?_)
      -- The other keys look for their baselines where that of the first one is gone.
      constructor
      · rintro ⟨before, key, after, rfl, hnodup, hbefore, hkey, rfl⟩
        have hleft : ∀ k ∈ before, k ≠ first ∧ k ∈ stats.keys := fun k hk =>
          KeyMap.mem_keys_erase.1 (hbefore k hk)
        refine ⟨first :: before, key, after, rfl, ?_, ?_, fun hmem => ?_, rfl⟩
        · exact List.nodup_cons.2 ⟨fun h => (hleft first h).1 rfl, hnodup⟩
        · exact List.forall_mem_cons.2 ⟨hfirst, fun k hk => (hleft k hk).2⟩
        · by_cases heq : key = first
          · exact heq ▸ List.mem_cons_self
          · exact List.mem_cons_of_mem _ (hkey (KeyMap.mem_keys_erase.2 ⟨heq, hmem⟩))
      · rintro ⟨before, key, after, hkeys, hnodup, hbefore, hkey, rfl⟩
        cases before with
        | nil =>
          obtain ⟨rfl, -⟩ := List.cons_eq_cons.1 hkeys
          exact absurd (hkey hfirst) List.not_mem_nil
        | cons k before =>
          obtain ⟨rfl, hrest⟩ := List.cons_eq_cons.1 hkeys
          obtain ⟨hnot, hnodup⟩ := List.nodup_cons.1 hnodup
          refine ⟨before, key, after, hrest, hnodup, fun k hk => ?_, fun hmem => ?_, rfl⟩
          · have hne : k ≠ first := by
              rintro rfl
              exact hnot hk
            exact KeyMap.mem_keys_erase.2 ⟨hne, hbefore k (List.mem_cons_of_mem _ hk)⟩
          · obtain ⟨hne, hmem⟩ := KeyMap.mem_keys_erase.1 hmem
            exact (List.mem_cons.1 (hkey hmem)).resolve_left hne

/-- Where the covered keys are different, keys fail for the first one without a baseline only. -/
theorem claimStats_eq_error_iff_of_nodup (h : (covered stats keys).Nodup) :
    claimStats keys stats = .error e ↔
      ∃ key, firstLacking? stats keys = some key ∧ e = .missingRewardStat key := by
  rw [claimStats_eq_error_iff]
  constructor
  · rintro ⟨before, key, after, rfl, -, hbefore, hkey, rfl⟩
    rw [covered_append hbefore] at h
    -- A key that has a baseline and comes again would be covered twice.
    have hlacks : key ∉ stats.keys := by
      intro hmem
      have hcovered : covered stats ([key] ++ after) = [key] ++ covered stats after :=
        covered_append (List.forall_mem_singleton.2 hmem) after
      rw [List.singleton_append] at hcovered
      rw [hcovered, List.nodup_append] at h
      exact h.2.2 key (hkey hmem) key List.mem_cons_self rfl
    refine ⟨key, firstLacking?_eq_some_iff.2 ⟨hlacks, after, ?_⟩, rfl⟩
    rw [covered_append hbefore, covered_cons_of_lacking hlacks, List.append_nil]
  · rintro ⟨key, hfirst, rfl⟩
    obtain ⟨hlacks, after, hkeys⟩ := firstLacking?_eq_some_iff.1 hfirst
    exact ⟨covered stats keys, key, after, hkeys, h, fun k hk => mem_keys_of_covered hk,
      fun hmem => absurd hmem hlacks, rfl⟩

/-- Where a covered key comes twice, keys fail for one that has a baseline. -/
theorem exists_claimStats_of_not_nodup (h : ¬ (covered stats keys).Nodup) :
    ∃ key ∈ stats.keys, claimStats keys stats = .error (.missingRewardStat key) := by
  have hfails : ∃ e, claimStats keys stats = .error e := by
    rw [Except.exists_eq_error_iff, exists_claimStats_iff]
    rintro ⟨hnodup, -⟩
    exact h (hnodup.sublist (List.takeWhile_sublist _))
  obtain ⟨e, he⟩ := hfails
  obtain ⟨before, key, after, rfl, hnodup, hbefore, -, rfl⟩ := claimStats_eq_error_iff.1 he
  refine ⟨key, ?_, he⟩
  by_contra hlacks
  -- Otherwise the covered keys would be those before it, which are different.
  rw [covered_append hbefore, covered_cons_of_lacking hlacks, List.append_nil] at h
  exact h hnodup

variable {d : ModuleData} {f : NameFilter} {records : List Bytes}
  {rewards policyRewards : List Float} {modelId : Nat}

/-- A filter fails if the keys that it selects do. -/
theorem retainKeys_eq_error_iff :
    d.retainKeys f = .error e ↔ claimStats (d.keys.filter f.selects) d.stats = .error e := by
  rw [← keys_selected, retainKeys, ← selected, Except.bind_eq_error_iff]
  exact or_iff_left (by rintro ⟨_, -, ⟨⟩⟩)

/-- Under a filter that fails a module stops its worker. -/
theorem isFatal_ofData_iff {name : String} :
    (Envelope.ofData (some f) name d).isFatal = true ↔ ∃ e, d.retainKeys f = .error e := by
  cases hretain : d.retainKeys f with
  | ok kept =>
    simp only [Envelope.ofData, hretain, Envelope.isFatal, reduceCtorEq, exists_false]
  | error e =>
    -- The error is of the kind that concerns more than the module.
    obtain ⟨before, key, after, -, -, -, -, rfl⟩ :=
      claimStats_eq_error_iff.1 (retainKeys_eq_error_iff.1 hretain)
    simp only [Envelope.ofData, hretain, Envelope.ofError, CompilationError.isRecoverable,
      Bool.false_eq_true, if_false, Envelope.isFatal, Except.error.injEq, exists_eq']

/-- When a filter fails for data that was made of its columns. Let the selected keys before the
first one without a baseline be different: then it fails exactly if there is a selected key without
a baseline, it names the first such key, and the worker stops for no other reason. If one of these
keys comes twice, the filter fails although the key that it names has a baseline. -/
theorem retaining_fails
    (h : ofColumns keys records rewards policyRewards stats modelId = .ok d) (f : NameFilter) :
    ((covered stats (keys.filter f.selects)).Nodup →
      (∀ e, d.retainKeys f = .error e ↔ ∃ key,
        firstLacking? stats (keys.filter f.selects) = some key ∧ e = .missingRewardStat key) ∧
      ((∃ kept, d.retainKeys f = .ok kept) ↔ ∀ k ∈ keys, f.selects k = true → k ∈ stats.keys) ∧
      ∀ name, (Envelope.ofData (some f) name d).isFatal = true ↔
        ∃ k ∈ keys, f.selects k = true ∧ k ∉ stats.keys) ∧
    (¬ (covered stats (keys.filter f.selects)).Nodup →
      ∃ key ∈ stats.keys, d.retainKeys f = .error (.missingRewardStat key)) := by
  have hkeys : d.keys = keys := keys_of_ofColumns h
  have hstats : d.stats = stats := congrArg ModuleData.stats (ofColumns_eq_ok_iff.1 h).2
  have herror {e : CompilationError} : d.retainKeys f = .error e ↔
      claimStats (keys.filter f.selects) stats = .error e := by
    rw [retainKeys_eq_error_iff, hkeys, hstats]
  refine ⟨fun hnodup => ?_, fun hnot => ?_⟩
  · have hlaw (e : CompilationError) :=
      herror.trans (claimStats_eq_error_iff_of_nodup (e := e) hnodup)
    have hkept : (∃ kept, d.retainKeys f = .ok kept) ↔
        ∀ k ∈ keys, f.selects k = true → k ∈ stats.keys := by
      rw [exists_retainKeys_iff, hkeys, hstats]
      simp only [List.mem_filter, and_imp]
      refine and_iff_right_of_imp fun hall => ?_
      -- Where all selected keys have baselines they are all covered, and so they are different.
      have hselected : ∀ k ∈ keys.filter f.selects, k ∈ stats.keys := fun k hk =>
        hall k (List.mem_filter.1 hk).1 (List.mem_filter.1 hk).2
      rw [covered_eq_self hselected] at hnodup
      exact hnodup
    refine ⟨hlaw, hkept, fun name => ?_⟩
    rw [isFatal_ofData_iff, Except.exists_eq_error_iff, hkept]
    simp only [not_forall, exists_prop]
  · obtain ⟨key, hkey, hfails⟩ := exists_claimStats_of_not_nodup hnot
    exact ⟨key, hkey, herror.2 hfails⟩

namespace Sample

/-- Baselines of two keys. -/
def twoBaselines : RewardStats :=
  (KeyMap.empty.insert "main" (.start 8)).insert "init" (.start 9)

end Sample

/-- A pattern that selects a key without a baseline behind one with a baseline, and the same pattern
for a key that comes twice. -/
theorem retaining_fails_of_two_lists :
    ∃ f d d', NameFilter.ofPattern? "main|help" = some f ∧
      ofColumns ["main", "init", "helper"] [[1], [2], [3]] [1, 2, 3] [5, 6, 7]
        Sample.twoBaselines 9 = .ok d ∧
      ofColumns ["main", "init", "main"] [[1], [2], [3]] [1, 2, 3] [5, 6, 7]
        Sample.twoBaselines 9 = .ok d' ∧
      d.retainKeys f = .error (.missingRewardStat "helper") ∧
      (Envelope.ofData (some f) "a" d).isFatal = true ∧
      ∃ key ∈ Sample.twoBaselines.keys, d'.retainKeys f = .error (.missingRewardStat key) := by
  obtain ⟨f, hf⟩ : ∃ f, NameFilter.ofPattern? "main|help" = some f :=
    Option.isSome_iff_exists.1 (by decide +kernel)
  have hselects : (NameFilter.ofPattern? "main|help").map
      (fun f => ["main", "init", "helper"].map f.selects) = some [true, false, true] := by
    decide +kernel
  rw [hf, Option.map_some, Option.some_inj] at hselects
  simp only [List.map_cons, List.map_nil, List.cons.injEq, and_true] at hselects
  obtain ⟨d, hd⟩ : ∃ d, ofColumns ["main", "init", "helper"] [[1], [2], [3]] [1, 2, 3] [5, 6, 7]
      Sample.twoBaselines 9 = .ok d := ⟨_, rfl⟩
  obtain ⟨d', hd'⟩ : ∃ d', ofColumns ["main", "init", "main"] [[1], [2], [3]] [1, 2, 3] [5, 6, 7]
      Sample.twoBaselines 9 = .ok d' := ⟨_, rfl⟩
  have hkeys : ["main", "init", "helper"].filter f.selects = ["main", "helper"] := by
    simp only [List.filter, hselects]
  have hkeys' : ["main", "init", "main"].filter f.selects = ["main", "main"] := by
    simp only [List.filter, hselects]
  obtain ⟨hlaw, -, hfatal⟩ := (retaining_fails hd f).1 (by rw [hkeys]; decide +kernel)
  have hrepeats := (retaining_fails hd' f).2 (by rw [hkeys']; decide +kernel)
  refine ⟨f, d, d', hf, hd, hd', (hlaw _).2 ⟨"helper", ?_, rfl⟩, (hfatal "a").2 ?_, hrepeats⟩
  · rw [hkeys]
    decide +kernel
  · exact ⟨"helper", by decide, hselects.2.2, by decide +kernel⟩

/-- Data whose only key comes twice: the key has a baseline, and yet a filter fails for want of one
and the worker stops, which it does not do without a filter. -/
theorem repeated_key_fails :
    ∃ f d, NameFilter.ofPattern? "a" = some f ∧
      ofColumns ["a", "a"] [[1], [2]] [0, 0] [0, 0] (KeyMap.empty.insert "a" (.start 0)) 0 = .ok d ∧
      (∀ k ∈ d.keys, k ∈ d.stats.keys) ∧ d.retainKeys f = .error (.missingRewardStat "a") ∧
      (Envelope.ofData (some f) "m" d).isFatal = true ∧
      (Envelope.ofData none "m" d).isSuccess = true := by
  obtain ⟨f, hf⟩ : ∃ f, NameFilter.ofPattern? "a" = some f :=
    Option.isSome_iff_exists.1 (by decide +kernel)
  have hselects : (NameFilter.ofPattern? "a").map (·.selects "a") = some true := by
    decide +kernel
  rw [hf, Option.map_some, Option.some_inj] at hselects
  obtain ⟨d, hd⟩ : ∃ d, ofColumns ["a", "a"] [[1], [2]] [0, 0] [0, 0]
      (KeyMap.empty.insert "a" (.start 0)) 0 = .ok d := ⟨_, rfl⟩
  have hkeys : d.keys = ["a", "a"] := keys_of_ofColumns hd
  have hstats : d.stats = KeyMap.empty.insert "a" (.start 0) :=
    congrArg ModuleData.stats (ofColumns_eq_ok_iff.1 hd).2
  have hfails : d.retainKeys f = .error (.missingRewardStat "a") := by
    rw [retainKeys_eq_error_iff, hkeys, hstats, claimStats_eq_error_iff]
    refine ⟨["a"], "a", [], ?_, by decide, by decide +kernel, fun _ => by decide, rfl⟩
    simp only [List.filter, hselects]
    rfl
  refine ⟨f, d, hf, hd, ?_, hfails, isFatal_ofData_iff.2 ⟨_, hfails⟩, rfl⟩
  rw [hkeys, hstats]
  decide +kernel

end ModuleData

end TraceGen
