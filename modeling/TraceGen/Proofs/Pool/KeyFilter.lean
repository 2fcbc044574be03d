import TraceGen.Proofs.Pool.CompileFaults

/-!
# What a key filter changes

`Pool.key_filter_selects` compares what a worker reports under a filter with what it would report
without one, for every answer of a collector. The records are those whose keys the filter selects,
in their order. Of the baselines those stay whose keys the filter selects and that have a row; so a
filter that selects all keys changes nothing exactly if no baseline is without a row.

Data that compiling gives can be reported under every filter, and without a policy each of its
baselines has a row. With a policy this need not be so, as a key may be reported by the first
compile only: `Pool.filter_drops_rowless_baseline` shows what happens to its baseline.
-/

namespace TraceGen

namespace Pool

variable {c : Collection} {f : NameFilter} {outcome : ModuleOutcome}

/-- A filter can select rows of data only. -/
theorem exists_data_of_success {keyFilter : Option NameFilter}
    (h : c.envelope keyFilter = .success outcome) : ∃ d, c.answer = .data d := by
  unfold Collection.envelope Envelope.ofCollected at h
  cases ha : c.answer with
  | data d => exact ⟨d, rfl⟩
  | failed e =>
    rw [ha] at h
    simp only [Envelope.ofError] at h
    split at h <;> cases h
  | panicked message =>
    rw [ha] at h
    cases h

/-- Data that is reported under a filter has been kept by it. -/
theorem exists_retainKeys_of_success {d : ModuleData} (ha : c.answer = .data d)
    (h : c.envelope (some f) = .success outcome) :
    ∃ kept, d.retainKeys f = .ok kept ∧ outcome = .ofData c.subject.name kept := by
  unfold Collection.envelope Envelope.ofCollected at h
  rw [ha] at h
  simp only [Envelope.ofData] at h
  split at h
  · rename_i kept hkept
    exact ⟨kept, hkept, (Envelope.success.inj h).symm⟩
  · simp only [Envelope.ofError] at h
    split at h <;> cases h

/-- The records of the selected rows are the records whose keys are selected. -/
theorem records_selected (d : ModuleData) (f : NameFilter) :
    (d.selected f).map (·.record) =
      ((d.keys.zip d.records).filter fun x => f.selects x.1).map (·.2) := by
  unfold ModuleData.selected ModuleData.keys ModuleData.records
  rw [List.zip_map', List.filter_map, List.map_map]
  rfl

/-- Under a filter that selects the key of each row all rows stay, and the baselines stay that have
a row. -/
theorem retained_of_selects_all {d kept : ModuleData} (hkept : d.retainKeys f = .ok kept)
    (hall : ∀ k ∈ d.keys, f.selects k = true) :
    kept.records = d.records ∧ (kept.stats = d.stats ↔ ∀ k ∈ d.stats.keys, k ∈ d.keys) := by
  obtain ⟨hrows, -, hstats⟩ := ModuleData.entries_of_retainKeys hkept
  constructor
  · have hselected : d.selected f = d.rows :=
      List.filter_eq_self.2 fun row hrow => hall row.key (List.mem_map_of_mem hrow)
    rw [ModuleData.records, hrows, hselected]
    rfl
  · -- A filtered list is the whole list exactly if each member passes.
    have hfilter : kept.stats = d.stats ↔
        ∀ e ∈ d.stats.entries, (f.selects e.1 && decide (e.1 ∈ d.keys)) = true := by
      rw [← List.filter_eq_self, ← hstats]
      exact ⟨congrArg KeyMap.entries, KeyMap.ext_entries⟩
    rw [hfilter]
    simp only [KeyMap.keys, List.forall_mem_map, Bool.and_eq_true, decide_eq_true_iff]
    exact forall₂_congr fun e _ => ⟨And.right, fun hmem => ⟨hall e.1 hmem, hmem⟩⟩

/-- What a worker reports after a call under a filter, provided that it reports data. Without the
filter it would report data too. The records under the filter are those whose keys it selects, in
their order, and the baselines are those whose keys it selects and that have a row. So a filter that
selects the key of each row keeps the records, and it changes nothing exactly if each baseline has a
row. All data that compiling gives can be reported under every filter, and without a policy each of
its baselines has a row. -/
theorem key_filter_selects :
    (∀ (c : Collection) (f : NameFilter) (outcome : ModuleOutcome),
      c.envelope (some f) = .success outcome →
      ∃ d unfiltered, c.answer = .data d ∧ c.envelope none = .success unfiltered ∧
        outcome.name = unfiltered.name ∧
        outcome.records =
          ((d.keys.zip unfiltered.records).filter fun x => f.selects x.1).map (·.2) ∧
        outcome.stats.entries =
          unfiltered.stats.entries.filter (fun e => f.selects e.1 && decide (e.1 ∈ d.keys)) ∧
        ((∀ k ∈ d.keys, f.selects k = true) →
          outcome.records = unfiltered.records ∧
          (outcome = unfiltered ↔ ∀ k ∈ unfiltered.stats.keys, k ∈ d.keys))) ∧
    ∀ (r : CompileRunner) (m : LoadedModule) (policy : Option Policy) (h : Host) (d : ModuleData),
      (r.collect m policy none defaultModelId h).1 = .ok d →
      (∀ f, (Envelope.ofData (some f) m.name d).isSuccess = true) ∧
        (policy = none → ∀ k ∈ d.stats.keys, k ∈ d.keys) := by
  constructor
  · intro c f outcome hsuccess
    obtain ⟨d, ha⟩ := exists_data_of_success hsuccess
    obtain ⟨kept, hkept, rfl⟩ := exists_retainKeys_of_success ha hsuccess
    obtain ⟨hrows, -, hstats⟩ := ModuleData.entries_of_retainKeys hkept
    refine ⟨d, .ofData c.subject.name d, ha, ?_, rfl, ?_, hstats, fun hall => ?_⟩
    · unfold Collection.envelope Envelope.ofCollected
      rw [ha]
      rfl
    · show kept.rows.map (·.record) = _
      rw [hrows]
      exact records_selected d f
    · obtain ⟨hrecords, hsame⟩ := retained_of_selects_all hkept hall
      refine ⟨hrecords, Iff.trans ?_ hsame⟩
      constructor
      · exact congrArg ModuleOutcome.stats
      · intro hstats
        show ModuleOutcome.mk _ kept.records kept.stats = ⟨_, d.records, d.stats⟩
        rw [hrecords, hstats]
  · intro r m policy h d hd
    refine ⟨fun f => Envelope.isSuccess_ofData (CompileRunner.sound_of_collect hd) (some f) m.name,
      ?_⟩
    rintro rfl k hk
    obtain ⟨-, log, -, hkeys, hsame⟩ := CompileRunner.collect_none_eq_ok hd
    rw [hkeys]
    exact (hsame k).1 hk

namespace Sample

/-- Data with rows for two keys and baselines for three. -/
def rowless : ModuleData :=
  ⟨[⟨"g0", [121], 0, 1⟩, ⟨"f0", [120], 0, 1⟩],
    ((KeyMap.empty.insert "f0" (.start 0)).insert "f1" (.start 1)).insert "g0" (.start 2), 0⟩

/-- A call that gave this data. -/
def rowlessCall : Collection :=
  ⟨0, loaded "a" [], .data rowless⟩

end Sample

/-- A filter that selects one of two rows, and two of three baselines, of which one has no row; and
data that compiling gave, under the same filter. -/
theorem key_filter_selects_of_lettered :
    (∃ outcome unfiltered, Sample.rowlessCall.envelope (some Sample.lettered) = .success outcome ∧
      Sample.rowlessCall.envelope none = .success unfiltered ∧
      unfiltered.records = [[121], [120]] ∧ unfiltered.stats.keys = ["f0", "f1", "g0"] ∧
      outcome.records = [[120]] ∧ outcome.stats.keys = ["f0"]) ∧
    ∃ d, (CompileRunner.Sample.runner.collect CompileRunner.Sample.loaded none none defaultModelId
        CompileRunner.Sample.host).1 = .ok d ∧
      (Envelope.ofData (some Sample.lettered) "a" d).isSuccess = true := by
  obtain ⟨hselects, hcompiled⟩ := key_filter_selects
  constructor
  · obtain ⟨outcome, hsuccess⟩ : ∃ outcome,
        Sample.rowlessCall.envelope (some Sample.lettered) = .success outcome := ⟨_, rfl⟩
    obtain ⟨d, unfiltered, ha, hnone, -, hrecords, hstats, -⟩ := hselects _ _ _ hsuccess
    cases ha
    cases hnone
    refine ⟨outcome, _, hsuccess, rfl, rfl, rfl, hrecords, ?_⟩
    rw [KeyMap.keys, hstats]
    rfl
  · have hcollect : (CompileRunner.Sample.runner.collect CompileRunner.Sample.loaded none none
        defaultModelId CompileRunner.Sample.host).1.isOk = true := by
      decide +kernel
    cases hd : (CompileRunner.Sample.runner.collect CompileRunner.Sample.loaded none none
        defaultModelId CompileRunner.Sample.host).1 with
    | error e =>
      rw [hd] at hcollect
      cases hcollect
    | ok d => exact ⟨d, rfl, (hcompiled _ _ _ _ d hd).1 _⟩

/-- A filter that selects every key takes away the baseline of a key without a row. -/
theorem filter_drops_rowless_baseline :
    ∃ (f : NameFilter) (outcome unfiltered : ModuleOutcome), (∀ k, f.selects k = true) ∧
      Sample.rowlessCall.envelope (some f) = .success outcome ∧
      Sample.rowlessCall.envelope none = .success unfiltered ∧
      unfiltered.stats.keys = ["f0", "f1", "g0"] ∧ outcome.stats.keys = ["f0", "g0"] :=
  ⟨⟨"", .empty⟩, _, _, fun _ => rfl, rfl, rfl, rfl, rfl⟩

end Pool

end TraceGen
