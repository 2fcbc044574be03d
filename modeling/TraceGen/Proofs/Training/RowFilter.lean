import TraceGen.Proofs.Training.Retaining

/-!
# Keeping rows is a lawful filter

`ModuleData.retaining_lawful` says what is kept of data that was made of its columns. The columns
stay parallel: they are those of the rows whose keys the filter selects. The baselines kept are
those of the keys kept. Keeping the same rows again changes nothing, and the order of two filters
does not matter where both orders succeed.

All of it follows from `ModuleData.retainKeys_eq_ok_iff`: data is what is kept if it has the
selected rows, if their keys are different and have baselines, and if it has just these baselines.
-/

namespace TraceGen

/-- A row as a line of a table. -/
def DataRow.cells (row : DataRow) : String × Bytes × Float × Float :=
  (row.key, row.record, row.reward, row.policyReward)

namespace ModuleData

/-! ## Columns -/

/-- The table of columns that stand side by side. -/
def table (keys : List String) (records : List Bytes) (rewards policyRewards : List Float) :
    List (String × Bytes × Float × Float) :=
  keys.zip (records.zip (rewards.zip policyRewards))

/-- The rewards in order. -/
def rewards (d : ModuleData) : List Float :=
  d.rows.map (·.reward)

/-- The measurements in order. -/
def policyRewards (d : ModuleData) : List Float :=
  d.rows.map (·.policyReward)

/-- The columns of data make the table of its rows. -/
theorem table_columns (d : ModuleData) :
    table d.keys d.records d.rewards d.policyRewards = d.rows.map DataRow.cells := by
  unfold table ModuleData.keys ModuleData.records ModuleData.rewards ModuleData.policyRewards
  rw [List.zip_map', List.zip_map', List.zip_map']
  rfl

variable {d kept first second : ModuleData} {f g : NameFilter} {keys : List String}
  {records : List Bytes} {rewards policyRewards : List Float} {stats : RewardStats}
  {modelId : Nat}

/-- Rows made of columns make the table of these. -/
theorem map_cells_zipRows (keys : List String) (records : List Bytes)
    (rewards policyRewards : List Float) :
    (zipRows keys records rewards policyRewards).map DataRow.cells =
      table keys records rewards policyRewards := by
  fun_induction zipRows keys records rewards policyRewards with
  | case1 key keys record records reward rewards policyReward policyRewards ih =>
    rw [List.map_cons, ih]
    rfl
  | case2 keys records rewards policyRewards hends =>
    -- One of the columns has ended, and so has the table.
    cases keys with
    | nil => rfl
    | cons key keys =>
      cases records with
      | nil => rfl
      | cons record records =>
        cases rewards with
        | nil => rfl
        | cons reward rewards =>
          cases policyRewards with
          | nil => rfl
          | cons policyReward policyRewards => exact (hends _ _ _ _ _ _ _ _ rfl rfl rfl rfl).elim

/-- Data is made of columns if they have the same length. -/
theorem ofColumns_eq_ok_iff : ofColumns keys records rewards policyRewards stats modelId = .ok d ↔
    (records.length = keys.length ∧ rewards.length = keys.length ∧
      policyRewards.length = keys.length) ∧
    d = ⟨zipRows keys records rewards policyRewards, stats, modelId⟩ := by
  unfold ofColumns
  by_cases hlengths : records.length = keys.length ∧ rewards.length = keys.length ∧
      policyRewards.length = keys.length
  · rw [if_pos hlengths, and_iff_right hlengths, Except.ok.injEq, eq_comm]
  · rw [if_neg hlengths]
    exact ⟨nofun, fun h => absurd h.1 hlengths⟩

/-- A row is known by its cells. -/
theorem cells_injective {a b : DataRow} (h : a.cells = b.cells) : a = b := by
  cases a
  cases b
  cases h
  rfl

/-- Data is made of its own columns. -/
theorem ofColumns_self (d : ModuleData) :
    ofColumns d.keys d.records d.rewards d.policyRewards d.stats d.modelId = .ok d := by
  have hcells : (zipRows d.keys d.records d.rewards d.policyRewards).map DataRow.cells =
      d.rows.map DataRow.cells := by
    rw [map_cells_zipRows, table_columns]
  have hrows : zipRows d.keys d.records d.rewards d.policyRewards = d.rows :=
    List.map_injective_iff.2 (fun a b h => cells_injective h) hcells
  rw [ofColumns_eq_ok_iff, hrows]
  refine ⟨⟨?_, ?_, ?_⟩, rfl⟩
  all_goals
    simp only [ModuleData.keys, ModuleData.records, ModuleData.rewards, ModuleData.policyRewards,
      List.length_map]

/-- Data made of columns has their table. -/
theorem table_of_ofColumns
    (h : ofColumns keys records rewards policyRewards stats modelId = .ok d) :
    table d.keys d.records d.rewards d.policyRewards =
      table keys records rewards policyRewards := by
  obtain ⟨-, rfl⟩ := ofColumns_eq_ok_iff.1 h
  rw [table_columns]
  exact map_cells_zipRows keys records rewards policyRewards

/-- Data made of columns has their keys. -/
theorem keys_of_ofColumns
    (h : ofColumns keys records rewards policyRewards stats modelId = .ok d) : d.keys = keys := by
  obtain ⟨⟨hrecords, hrewards, hpolicyRewards⟩, -⟩ := ofColumns_eq_ok_iff.1 h
  -- The other columns are not shorter, so that no key is lost.
  have hfirst : (table keys records rewards policyRewards).map (·.1) = keys := by
    refine List.map_fst_zip ?_
    rw [List.length_zip, List.length_zip]
    omega
  rw [← table_of_ofColumns h, table_columns, List.map_map] at hfirst
  exact hfirst

/-! ## What is kept -/

/-- Data is kept if it has the selected rows, if their keys are different and have baselines, and if
these baselines are kept and no others. -/
theorem retainKeys_eq_ok_iff : d.retainKeys f = .ok kept ↔
    (kept.keys.Nodup ∧ ∀ k ∈ kept.keys, k ∈ d.stats.keys) ∧ kept.rows = d.selected f ∧
      kept.modelId = d.modelId ∧
      kept.stats.entries = d.stats.entries.filter fun e => e.1 ∈ kept.keys := by
  rw [retainKeys_eq_ok_iff_claimStats, claimStats_eq_ok_iff]
  constructor
  · rintro ⟨⟨hkeys, hstats⟩, hrows, hmodel⟩
    rw [← hrows] at hkeys hstats
    exact ⟨hkeys, hrows, hmodel, hstats⟩
  · rintro ⟨hkeys, hrows, hmodel, hstats⟩
    unfold ModuleData.keys at hkeys hstats
    rw [hrows] at hkeys hstats
    exact ⟨⟨hkeys, hstats⟩, hrows, hmodel⟩

/-- The keys that are kept are those that the filter selects. -/
theorem keys_of_retainKeys (h : d.retainKeys f = .ok kept) :
    kept.keys = d.keys.filter f.selects := by
  rw [← keys_selected, ← (retainKeys_eq_ok_iff.1 h).2.1, keys]

/-- The table of what is kept has the lines whose key is selected. -/
theorem table_of_retainKeys (h : d.retainKeys f = .ok kept) :
    table kept.keys kept.records kept.rewards kept.policyRewards =
      (table d.keys d.records d.rewards d.policyRewards).filter fun line => f.selects line.1 := by
  rw [table_columns, table_columns, (retainKeys_eq_ok_iff.1 h).2.1, selected, List.filter_map]
  rfl

/-- At each key that is kept there is its baseline, and there are no others. -/
theorem get?_of_retainKeys (h : d.retainKeys f = .ok kept) (k : String) :
    kept.stats.get? k = if k ∈ kept.keys then d.stats.get? k else none := by
  obtain ⟨hclaim, hrows, -⟩ := retainKeys_eq_ok_iff_claimStats.1 h
  rw [get?_claimStats hclaim, ← hrows]
  rfl

/-- The keys with baselines are the keys that are kept. -/
theorem mem_keys_of_retainKeys (h : d.retainKeys f = .ok kept) (k : String) :
    k ∈ kept.stats.keys ↔ k ∈ kept.keys := by
  obtain ⟨⟨-, hcovered⟩, -⟩ := retainKeys_eq_ok_iff.1 h
  have hget := get?_of_retainKeys h k
  constructor
  · intro hk
    by_contra hnot
    rw [if_neg hnot, KeyMap.get?_eq_none_iff] at hget
    exact hget hk
  · intro hk
    by_contra hnot
    rw [if_pos hk, KeyMap.get?_eq_none_iff.2 hnot, eq_comm, KeyMap.get?_eq_none_iff] at hget
    exact hget (hcovered k hk)

/-- Keeping the same rows again changes nothing. -/
theorem retainKeys_again (h : d.retainKeys f = .ok kept) : kept.retainKeys f = .ok kept := by
  obtain ⟨⟨hnodup, -⟩, hrows, -⟩ := retainKeys_eq_ok_iff.1 h
  refine retainKeys_eq_ok_iff.2 ⟨⟨hnodup, ?_⟩, ?_, rfl, ?_⟩
  · exact fun k hk => (mem_keys_of_retainKeys h k).2 hk
  · -- The rows that are left are all selected.
    rw [selected, eq_comm, List.filter_eq_self, hrows]
    exact fun row hrow => (List.mem_filter.1 hrow).2
  · rw [eq_comm, List.filter_eq_self]
    intro e he
    exact decide_eq_true ((mem_keys_of_retainKeys h e.1).1 (List.mem_map_of_mem he))

/-- What two filters keep one after the other: the rows that both select, with their baselines. -/
theorem retainKeys_twice (hfirst : d.retainKeys f = .ok first)
    (hsecond : first.retainKeys g = .ok second) :
    second.rows = d.rows.filter (fun row => f.selects row.key && g.selects row.key) ∧
      second.modelId = d.modelId ∧
      second.stats.entries = d.stats.entries.filter fun e => e.1 ∈ second.keys := by
  obtain ⟨-, hrows, hmodel, hstats⟩ := retainKeys_eq_ok_iff.1 hfirst
  obtain ⟨-, hrows', hmodel', hstats'⟩ := retainKeys_eq_ok_iff.1 hsecond
  -- Baselines that the second filter needs have passed the first one.
  have hsubset : ∀ k ∈ second.keys, k ∈ first.keys := by
    have hsublist : second.rows.Sublist first.rows := by
      rw [hrows']
      exact List.filter_sublist
    exact fun k hk => (hsublist.map (·.key)).subset hk
  refine ⟨?_, hmodel'.trans hmodel, ?_⟩
  · rw [hrows', selected, hrows, selected, List.filter_filter]
    exact List.filter_congr fun row _ => Bool.and_comm _ _
  · rw [hstats', hstats, List.filter_filter]
    refine List.filter_congr fun e _ => ?_
    rw [Bool.eq_iff_iff, Bool.and_eq_true, decide_eq_true_iff, decide_eq_true_iff]
    exact and_iff_left_of_imp (hsubset e.1)

/-- Data is known by its rows, its model and the entries of its baselines. -/
theorem eq_of_rows {a b : ModuleData} (hrows : a.rows = b.rows) (hmodel : a.modelId = b.modelId)
    (hentries : a.stats.entries = b.stats.entries) : a = b := by
  obtain ⟨rows, stats, modelId⟩ := a
  obtain ⟨rows', stats', modelId'⟩ := b
  have hstats : stats = stats' := KeyMap.ext_entries hentries
  cases hrows
  cases hmodel
  rw [hstats]

/-- Keeping the rows of a filter is lawful for data that was made of its columns. It works exactly
if the selected keys are different and have baselines. What is kept is again made of its columns,
which are those of the selected rows, in their order; the keys are different, the baselines are
theirs and unchanged, the number of the model stays, and keeping these rows again changes nothing.
If two filters can be used in both orders, the results are the same: the rows that both select. -/
theorem retaining_lawful
    (h : ofColumns keys records rewards policyRewards stats modelId = .ok d) :
    (∀ f : NameFilter, (∃ kept, d.retainKeys f = .ok kept) ↔
      (keys.filter f.selects).Nodup ∧ ∀ k ∈ keys.filter f.selects, k ∈ stats.keys) ∧
    (∀ f kept, d.retainKeys f = .ok kept →
      ofColumns kept.keys kept.records kept.rewards kept.policyRewards kept.stats kept.modelId =
        .ok kept ∧
      table kept.keys kept.records kept.rewards kept.policyRewards =
        (table keys records rewards policyRewards).filter (fun line => f.selects line.1) ∧
      kept.keys.Nodup ∧ (∀ k, k ∈ kept.stats.keys ↔ k ∈ kept.keys) ∧
      (∀ k ∈ kept.keys, kept.stats.get? k = stats.get? k) ∧ kept.modelId = modelId ∧
      kept.retainKeys f = .ok kept) ∧
    (∀ f g first second first' second', d.retainKeys f = .ok first →
      first.retainKeys g = .ok second → d.retainKeys g = .ok first' →
      first'.retainKeys f = .ok second' →
      second = second' ∧
      table second.keys second.records second.rewards second.policyRewards =
        (table keys records rewards policyRewards).filter
          (fun line => f.selects line.1 && g.selects line.1)) := by
  have htable := table_of_ofColumns h
  have hkeys := keys_of_ofColumns h
  obtain ⟨-, hdata⟩ := ofColumns_eq_ok_iff.1 h
  have hstats : d.stats = stats := congrArg ModuleData.stats hdata
  have hmodelId : d.modelId = modelId := congrArg ModuleData.modelId hdata
  refine ⟨fun f => ?_, fun f kept hkept => ?_, ?_⟩
  · rw [exists_retainKeys_iff, hkeys, hstats]
  · obtain ⟨⟨hnodup, -⟩, -, hmodel, -⟩ := retainKeys_eq_ok_iff.1 hkept
    refine ⟨ofColumns_self kept, ?_, hnodup, mem_keys_of_retainKeys hkept, fun k hk => ?_,
      hmodel.trans hmodelId, retainKeys_again hkept⟩
    · rw [table_of_retainKeys hkept, htable]
    · rw [get?_of_retainKeys hkept, if_pos hk, hstats]
  · intro f g first second first' second' hfirst hsecond hfirst' hsecond'
    obtain ⟨hrows, hmodel, hentries⟩ := retainKeys_twice hfirst hsecond
    obtain ⟨hrows', hmodel', hentries'⟩ := retainKeys_twice hfirst' hsecond'
    have hsame : second.rows = second'.rows := by
      rw [hrows, hrows']
      exact List.filter_congr fun row _ => Bool.and_comm _ _
    -- The rows decide which baselines there are, so that it is enough to compare the rows.
    constructor
    · refine eq_of_rows hsame (hmodel.trans hmodel'.symm) ?_
      rw [hentries, hentries', ModuleData.keys, ModuleData.keys, hsame]
    · rw [table_columns, hrows, ← htable, table_columns, List.filter_map]
      rfl

namespace Sample

/-- Four keys. -/
def names : List String :=
  ["main", "helper", "main_loop", "tear_down"]

/-- Baselines of the four keys and of a key without a row. -/
def baselines : RewardStats :=
  ("idle" :: names).foldl (fun stats k => stats.insert k (.start 8)) KeyMap.empty

end Sample

/-- Two patterns select from four keys in both orders, and one key matches both of them. -/
theorem retaining_lawful_of_two_patterns :
    ∃ f g d first second first' second',
      NameFilter.ofPattern? "main" = some f ∧ NameFilter.ofPattern? ".*_" = some g ∧
      ofColumns Sample.names [[1], [2], [3], [4]] [1, 2, 3, 4] [5, 6, 7, 8] Sample.baselines 9 =
        .ok d ∧
      d.retainKeys f = .ok first ∧ first.retainKeys g = .ok second ∧
      d.retainKeys g = .ok first' ∧ first'.retainKeys f = .ok second' ∧
      first.keys = ["main", "main_loop"] ∧ first'.keys = ["main_loop", "tear_down"] ∧
      second = second' ∧ second.keys = ["main_loop"] := by
  obtain ⟨f, hf⟩ : ∃ f, NameFilter.ofPattern? "main" = some f :=
    Option.isSome_iff_exists.1 (by decide +kernel)
  obtain ⟨g, hg⟩ : ∃ g, NameFilter.ofPattern? ".*_" = some g :=
    Option.isSome_iff_exists.1 (by decide +kernel)
  have hmain : (NameFilter.ofPattern? "main").map (fun f => Sample.names.map f.selects) =
      some [true, false, true, false] := by
    decide +kernel
  have hlow : (NameFilter.ofPattern? ".*_").map (fun g => Sample.names.map g.selects) =
      some [false, false, true, true] := by
    decide +kernel
  rw [hf, Option.map_some, Option.some_inj] at hmain
  rw [hg, Option.map_some, Option.some_inj] at hlow
  simp only [Sample.names, List.map_cons, List.map_nil, List.cons.injEq, and_true] at hmain hlow
  obtain ⟨d, hcolumns⟩ : ∃ d, ofColumns Sample.names [[1], [2], [3], [4]] [1, 2, 3, 4] [5, 6, 7, 8]
      Sample.baselines 9 = .ok d := ⟨_, rfl⟩
  obtain ⟨hexists, hkept, htwice⟩ := retaining_lawful hcolumns
  have hnames : d.keys = Sample.names := keys_of_ofColumns hcolumns
  obtain ⟨first, hfirst⟩ := (hexists f).2 (by
    simp only [Sample.names, List.filter, hmain]
    decide +kernel)
  obtain ⟨first', hfirst'⟩ := (hexists g).2 (by
    simp only [Sample.names, List.filter, hlow]
    decide +kernel)
  have hkeys : first.keys = ["main", "main_loop"] := by
    rw [keys_of_retainKeys hfirst, hnames]
    simp only [Sample.names, List.filter, hmain]
  have hkeys' : first'.keys = ["main_loop", "tear_down"] := by
    rw [keys_of_retainKeys hfirst', hnames]
    simp only [Sample.names, List.filter, hlow]
  obtain ⟨hagain, -, hnodup, hstats, -⟩ := hkept f first hfirst
  obtain ⟨hagain', -, hnodup', hstats', -⟩ := hkept g first' hfirst'
  -- What was kept is made of its columns too, so that the theorem holds of it.
  obtain ⟨second, hsecond⟩ := ((retaining_lawful hagain).1 g).2
    ⟨hnodup.filter _, fun k hk => (hstats k).2 (List.mem_filter.1 hk).1⟩
  obtain ⟨second', hsecond'⟩ := ((retaining_lawful hagain').1 f).2
    ⟨hnodup'.filter _, fun k hk => (hstats' k).2 (List.mem_filter.1 hk).1⟩
  have hsame := (htwice f g first second first' second' hfirst hsecond hfirst' hsecond').1
  refine ⟨f, g, d, first, second, first', second', hf, hg, hcolumns, hfirst, hsecond, hfirst',
    hsecond', hkeys, hkeys', hsame, ?_⟩
  rw [keys_of_retainKeys hsecond, hkeys]
  simp only [List.filter, hlow]

end ModuleData

end TraceGen
