import TraceGen.Proofs.Pool.Ledger

/-!
# One module after the other

`Sequential.run` is a run without workers, queue and channel. It takes the envelopes of modules one
after the other. For a module that gave data it writes all records and then a performance line for
each key in order, for one that failed it writes nothing, and it stops at the first fault and at the
first output that fails. At the end it closes the outputs; after a stop it closes them as well, but
an error of closing does not count then.

`Pool.Follows` ties a pool to this reference: the supervisor stands where the reference stands after
the envelopes that have been received. `Run.follows` shows that every run keeps it. The one action
that would break it is that of a supervisor who waits in vain, which `Ledger.not_stranded` excludes.
-/

namespace TraceGen

/-- Whether a module failed alone. -/
def Envelope.isFailure : Envelope → Bool
  | .failure => true
  | _ => false

/-- Envelopes that report no fault report data or a failure. -/
theorem Envelope.countP_add_countP {es : List Envelope} (h : ∀ e ∈ es, e.isFatal = false) :
    es.countP isSuccess + es.countP isFailure = es.length := by
  induction es with
  | nil => rfl
  | cons e es ih =>
    have hes := ih fun e he => h e (List.mem_cons_of_mem _ he)
    have he := h e List.mem_cons_self
    rw [List.countP_cons, List.countP_cons, List.length_cons]
    cases e with
    | fatal fault => cases he
    | failure | success outcome =>
      simp only [isSuccess, isFailure, Bool.false_eq_true, if_true, if_false]
      omega

/-- What is written to the outputs at once. -/
inductive Entry where
  /-- A training record. -/
  | record (bytes : Bytes)
  /-- A performance line. -/
  | row (row : PerformanceRow)

namespace Sequential

/-- All that a module writes: its records, and then a line for each key in order of the keys. -/
def entries (outcome : ModuleOutcome) : List Entry :=
  outcome.records.map .record ++
    outcome.stats.entries.map fun e => .row ⟨outcome.name, e.1, e.2⟩

/-- Writes an entry to its output; without that output there is nothing to do. -/
def put (sinks : Sinks) : Entry → Except SinkError Unit × Sinks
  | .record bytes =>
    match sinks.records with
    | none => (.ok (), sinks)
    | some w => ((w.write bytes).1, { sinks with records := some (w.write bytes).2 })
  | .row row =>
    match sinks.performance with
    | none => (.ok (), sinks)
    | some w => ((w.write row).1, { sinks with performance := some (w.write row).2 })

/-- Writes entries up to the first error. -/
def putAll : Sinks → List Entry → Except SinkError Unit × Sinks
  | sinks, [] => (.ok (), sinks)
  | sinks, e :: es =>
    match put sinks e with
    | (.error cause, sinks) => (.error cause, sinks)
    | (.ok (), sinks) => putAll sinks es

/-- How many records of a module are written: all, or none without an output for them. -/
def recordsWritten (sinks : Sinks) (outcome : ModuleOutcome) : Nat :=
  if sinks.records.isSome then outcome.records.length else 0

/-- Takes the envelope of a module: the counters and the outputs afterwards, or why the run stops
and the outputs at that time. -/
def take (st : Summary × Sinks) : Envelope → Except (PoolError × Sinks) (Summary × Sinks)
  | .fatal fault => .error (.workerFault fault, st.2)
  | .failure => .ok (st.1.addFailure, st.2)
  | .success outcome =>
    match putAll st.2 (entries outcome) with
    | (.error cause, sinks) => .error (.sink cause, sinks)
    | (.ok (), sinks) => .ok (st.1.addSuccess (recordsWritten st.2 outcome), sinks)

/-- Takes envelopes one after the other. -/
def takeAll (work : Nat) (sinks : Sinks) (es : List Envelope) :
    Except (PoolError × Sinks) (Summary × Sinks) :=
  es.foldlM take (.start work, sinks)

/-- Closes the outputs. An error that stopped the run counts more than one of closing. -/
def conclude : Except (PoolError × Sinks) (Summary × Sinks) → Except PoolError Summary × Sinks
  | .error (cause, sinks) => (.error cause, sinks.close.2)
  | .ok (summary, sinks) =>
    match sinks.close with
    | (.error cause, sinks) => (.error (.sink cause), sinks)
    | (.ok (), sinks) => (.ok summary, sinks)

/-- The result of a run over modules with these envelopes, and the outputs that it leaves. -/
def run (work : Nat) (sinks : Sinks) (es : List Envelope) : Except PoolError Summary × Sinks :=
  conclude (takeAll work sinks es)

/-! ## Writing a module -/

/-- Entries are written up to the first error, however they are grouped. -/
theorem putAll_append (sinks : Sinks) (es fs : List Entry) :
    putAll sinks (es ++ fs) =
      match putAll sinks es with
      | (.error cause, sinks) => (.error cause, sinks)
      | (.ok (), sinks) => putAll sinks fs := by
  induction es generalizing sinks with
  | nil => rfl
  | cons e es ih =>
    simp only [List.cons_append, putAll]
    split
    · rfl
    · exact ih _

/-- Records are written to their output as `Sinks.writeRecords` writes them. -/
theorem putAll_records (sinks : Sinks) (w : RecordSink) (hw : sinks.records = some w)
    (rs : List Bytes) :
    putAll sinks (rs.map .record) =
      ((Sinks.writeRecords w rs).1,
        { sinks with records := some (Sinks.writeRecords w rs).2 }) := by
  induction rs generalizing sinks w with
  | nil =>
    obtain ⟨records, performance⟩ := sinks
    subst hw
    rfl
  | cons r rs ih =>
    have hput : put sinks (.record r) =
        ((w.write r).1, { sinks with records := some (w.write r).2 }) := by
      rw [put, hw]
    rw [List.map_cons, putAll, hput, Sinks.writeRecords]
    rcases hwrite : w.write r with ⟨result, w'⟩
    cases result with
    | error cause => rfl
    | ok u => exact ih _ w' rfl

/-- Lines are written to their output as `Sinks.writeRows` writes them. -/
theorem putAll_rows (sinks : Sinks) (w : PerformanceSink) (hw : sinks.performance = some w)
    (rows : List PerformanceRow) :
    putAll sinks (rows.map .row) =
      ((Sinks.writeRows w rows).1,
        { sinks with performance := some (Sinks.writeRows w rows).2 }) := by
  induction rows generalizing sinks w with
  | nil =>
    obtain ⟨records, performance⟩ := sinks
    subst hw
    rfl
  | cons r rows ih =>
    have hput : put sinks (.row r) =
        ((w.write r).1, { sinks with performance := some (w.write r).2 }) := by
      rw [put, hw]
    rw [List.map_cons, putAll, hput, Sinks.writeRows]
    rcases hwrite : w.write r with ⟨result, w'⟩
    cases result with
    | error cause => rfl
    | ok u => exact ih _ w' rfl

/-- Without an output for records none is written. -/
theorem putAll_records_absent (sinks : Sinks) (hw : sinks.records = none) (rs : List Bytes) :
    putAll sinks (rs.map .record) = (.ok (), sinks) := by
  induction rs with
  | nil => rfl
  | cons r rs ih => simpa only [List.map_cons, putAll, put, hw] using ih

/-- Without an output for lines none is written. -/
theorem putAll_rows_absent (sinks : Sinks) (hw : sinks.performance = none)
    (rows : List PerformanceRow) : putAll sinks (rows.map .row) = (.ok (), sinks) := by
  induction rows with
  | nil => rfl
  | cons r rows ih => simpa only [List.map_cons, putAll, put, hw] using ih

/-- The records of a module are written one entry at a time. -/
theorem writeModuleRecords_eq (sinks : Sinks) (outcome : ModuleOutcome) :
    sinks.writeModuleRecords outcome =
      ((putAll sinks (outcome.records.map .record)).1.map fun _ => recordsWritten sinks outcome,
        (putAll sinks (outcome.records.map .record)).2) := by
  unfold Sinks.writeModuleRecords recordsWritten
  cases hr : sinks.records with
  | none =>
    rw [putAll_records_absent sinks hr]
    rfl
  | some w =>
    rw [putAll_records sinks w hr]
    rfl

/-- The lines of a module are written one entry at a time. -/
theorem writeModuleRows_eq (sinks : Sinks) (outcome : ModuleOutcome) :
    sinks.writeModuleRows outcome = putAll sinks ((Sinks.rowsOf outcome).map .row) := by
  unfold Sinks.writeModuleRows
  cases hp : sinks.performance with
  | none => rw [putAll_rows_absent sinks hp]
  | some w => rw [putAll_rows sinks w hp]

/-- A module is written by its records and then its lines, one entry at a time. -/
theorem writeOutcome_eq (sinks : Sinks) (outcome : ModuleOutcome) :
    sinks.writeOutcome outcome =
      ((putAll sinks (entries outcome)).1.map fun _ => recordsWritten sinks outcome,
        (putAll sinks (entries outcome)).2) := by
  have hrows : (outcome.stats.entries.map fun e => Entry.row ⟨outcome.name, e.1, e.2⟩) =
      (Sinks.rowsOf outcome).map .row := by
    rw [Sinks.rowsOf, List.map_map]
    rfl
  unfold Sinks.writeOutcome entries
  rw [hrows, putAll_append, writeModuleRecords_eq]
  rcases hput : putAll sinks (outcome.records.map .record) with ⟨result, sinks'⟩
  cases result with
  | error cause => rfl
  | ok u => simp only [Except.map, writeModuleRows_eq]

/-! ## The counters -/

/-- What taking an envelope does to the counters unless it stops the run. -/
theorem take_ok {st st' : Summary × Sinks} {e : Envelope} (h : take st e = .ok st') :
    e.isFatal = false ∧ st'.1.work = st.1.work ∧
      st'.1.successful = st.1.successful + (if e.isSuccess then 1 else 0) ∧
      st'.1.failed = st.1.failed + (if e.isFailure then 1 else 0) := by
  cases e with
  | fatal fault => cases h
  | failure =>
    cases h
    exact ⟨rfl, rfl, rfl, rfl⟩
  | success outcome =>
    simp only [take] at h
    split at h
    · cases h
    · cases h
      exact ⟨rfl, rfl, rfl, rfl⟩

/-- What taking envelopes does to the counters unless one of them stops the run. -/
theorem foldlM_take_ok {st st' : Summary × Sinks} {es : List Envelope}
    (h : es.foldlM take st = .ok st') :
    (∀ e ∈ es, e.isFatal = false) ∧ st'.1.work = st.1.work ∧
      st'.1.successful = st.1.successful + es.countP Envelope.isSuccess ∧
      st'.1.failed = st.1.failed + es.countP Envelope.isFailure := by
  induction es generalizing st with
  | nil =>
    cases h
    exact ⟨by simp, rfl, rfl, rfl⟩
  | cons e es ih =>
    rw [List.foldlM_cons] at h
    cases htake : take st e with
    | error cause =>
      rw [htake] at h
      cases h
    | ok st₁ =>
      rw [htake] at h
      obtain ⟨hfatal, hwork, hsuccessful, hfailed⟩ := take_ok htake
      obtain ⟨ihfatal, ihwork, ihsuccessful, ihfailed⟩ := ih h
      refine ⟨List.forall_mem_cons.2 ⟨hfatal, ihfatal⟩, ihwork.trans hwork, ?_, ?_⟩
      · rw [ihsuccessful, hsuccessful, List.countP_cons]
        omega
      · rw [ihfailed, hfailed, List.countP_cons]
        omega

/-- The counters after envelopes none of which stops the run. -/
theorem takeAll_ok {work : Nat} {sinks : Sinks} {es : List Envelope} {st : Summary × Sinks}
    (h : takeAll work sinks es = .ok st) :
    (∀ e ∈ es, e.isFatal = false) ∧ st.1.work = work ∧
      st.1.successful = es.countP Envelope.isSuccess ∧
      st.1.failed = es.countP Envelope.isFailure := by
  simpa [Summary.start] using foldlM_take_ok h

/-- A reference that ends well has taken all its envelopes. -/
theorem exists_takeAll_of_run {work : Nat} {sinks closed : Sinks} {es : List Envelope}
    {summary : Summary} (h : run work sinks es = (.ok summary, closed)) :
    ∃ sinks', takeAll work sinks es = .ok (summary, sinks') := by
  unfold run at h
  cases hd : takeAll work sinks es with
  | error stop =>
    rw [hd] at h
    cases h
  | ok st =>
    rw [hd] at h
    simp only [conclude] at h
    split at h <;> cases h
    exact ⟨st.2, rfl⟩

/-- Why taking envelopes stops: one of them reports a fault, or an output fails. -/
theorem foldlM_take_error {st : Summary × Sinks} {es : List Envelope} {cause : PoolError}
    {sinks : Sinks} (h : es.foldlM take st = .error (cause, sinks)) :
    (∃ fault, cause = .workerFault fault ∧ .fatal fault ∈ es) ∨ ∃ e, cause = .sink e := by
  induction es generalizing st with
  | nil => cases h
  | cons e es ih =>
    rw [List.foldlM_cons] at h
    cases htake : take st e with
    | ok st₁ =>
      rw [htake] at h
      refine (ih h).imp_left ?_
      rintro ⟨fault, hcause, hmem⟩
      exact ⟨fault, hcause, List.mem_cons_of_mem _ hmem⟩
    | error stop =>
      rw [htake] at h
      cases h
      cases e with
      | fatal fault =>
        cases htake
        exact .inl ⟨fault, rfl, List.mem_cons_self⟩
      | failure => cases htake
      | success outcome =>
        simp only [take] at htake
        split at htake
        · rename_i e _ _
          cases htake
          exact .inr ⟨e, rfl⟩
        · cases htake

/-- A reference that ends badly met a fault, or an output failed. -/
theorem run_error {work : Nat} {sinks closed : Sinks} {es : List Envelope} {cause : PoolError}
    (h : run work sinks es = (.error cause, closed)) :
    (∃ fault, cause = .workerFault fault ∧ .fatal fault ∈ es) ∨ ∃ e, cause = .sink e := by
  unfold run at h
  cases hd : takeAll work sinks es with
  | error stop =>
    rw [hd] at h
    cases h
    exact foldlM_take_error hd
  | ok st =>
    rw [hd] at h
    simp only [conclude] at h
    split at h
    · cases h
      exact .inr ⟨_, rfl⟩
    · cases h

/-- One further envelope is taken after the others. -/
theorem takeAll_snoc {work : Nat} {sinks : Sinks} {es : List Envelope} {st : Summary × Sinks}
    (h : takeAll work sinks es = .ok st) (e : Envelope) :
    takeAll work sinks (es ++ [e]) = take st e := by
  unfold takeAll at h ⊢
  rw [List.foldlM_append, h]
  show (take st e >>= fun st => pure st) = take st e
  rw [bind_pure]

end Sequential

end TraceGen
