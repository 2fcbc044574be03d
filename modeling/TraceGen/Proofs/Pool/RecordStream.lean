import TraceGen.Proofs.Pool.Outputs

/-!
# The stream of records after a good end

A run that ends well leaves a stream of exactly the records that the envelopes carry, and counts
them (`Run.stream`). The order is that in which the envelopes were received. Which records these are
can be told from the calls of the collector, up to their order (`Run.records_perm`).
-/

namespace TraceGen

open TraceGen.Frame

/-- The training records that an envelope carries. -/
def Envelope.records : Envelope → List Bytes
  | .success outcome => outcome.records
  | .failure | .fatal _ => []

/-- The training records of a call that are left by the key filter. There are none unless the worker
reports data. -/
def Collection.retained (keyFilter : Option NameFilter) (c : Collection) : List Bytes :=
  (c.envelope keyFilter).records

namespace Entry

/-- What envelopes give to the stream of records is the written form of the records they carry. -/
theorem pieces_records (es : List Envelope) :
    pieces .records (es.flatMap Envelope.entries) =
      (es.flatMap Envelope.records).map encode := by
  -- An envelope gives its records first, and then rows, which go to the other stream.
  have hone (e : Envelope) : pieces .records e.entries = e.records.map encode := by
    cases e with
    | failure | fatal => rfl
    | success outcome =>
      have hrecords :
          pieces .records (outcome.records.map .record) = outcome.records.map encode := by
        rw [pieces, List.filter_eq_self.2, List.map_map]
        · rfl
        · intro e he
          obtain ⟨record, -, rfl⟩ := List.mem_map.1 he
          rfl
      have hrows (rows : List PerformanceRow) : pieces .records (rows.map .row) = [] := by
        rw [pieces, List.filter_eq_nil_iff.2, List.map_nil]
        intro e he
        obtain ⟨row, -, rfl⟩ := List.mem_map.1 he
        exact of_decide_eq_false rfl
      have hlines := hrows (outcome.stats.entries.map fun e => ⟨outcome.name, e.1, e.2⟩)
      rw [List.map_map] at hlines
      calc pieces .records (Sequential.entries outcome)
          = pieces .records (outcome.records.map .record) ++ [] := by
            rw [Sequential.entries, pieces_append]
            exact congrArg _ hlines
        _ = outcome.records.map encode := by rw [List.append_nil, hrecords]
  induction es with
  | nil => rfl
  | cons e es ih =>
    rw [List.flatMap_cons, pieces_append, hone, ih, List.flatMap_cons, List.map_append]

end Entry

namespace Sequential

/-- Taking an envelope counts the records that it carries, if there is a stream for them. -/
theorem examples_of_take {st st' : Summary × Sinks} {e : Envelope} (h : take st e = .ok st')
    (hstream : st.2.records.isSome = true) :
    st'.1.examples = st.1.examples + e.records.length ∧ st'.2.records.isSome = true := by
  constructor
  · cases e with
    | fatal fault => cases h
    | failure =>
      cases h
      rfl
    | success outcome =>
      simp only [take] at h
      split at h
      · cases h
      · cases h
        show st.1.examples + recordsWritten st.2 outcome = st.1.examples + outcome.records.length
        rw [recordsWritten, if_pos hstream]
  · -- A sink is there after writing if it was there before.
    obtain ⟨w, hw⟩ := Option.isSome_iff_exists.1 hstream
    obtain ⟨done, rest, -, -, hwrote⟩ := take_wrote st e
    obtain ⟨b, hb, -⟩ := hwrote .records (w.sink, w.written) (by rw [Sinks.at?, hw]; rfl)
    rw [h] at hb
    obtain ⟨w', hw', -⟩ := Option.map_eq_some_iff.1 hb
    exact Option.isSome_iff_exists.2 ⟨w', hw'⟩

/-- Taking envelopes counts the records that they carry, if there is a stream for them. -/
theorem examples_of_foldlM_take {st st' : Summary × Sinks} {es : List Envelope}
    (h : es.foldlM take st = .ok st') (hstream : st.2.records.isSome = true) :
    st'.1.examples = st.1.examples + (es.flatMap Envelope.records).length := by
  induction es generalizing st with
  | nil =>
    cases h
    rfl
  | cons e es ih =>
    rw [List.foldlM_cons] at h
    cases htake : take st e with
    | error stop =>
      rw [htake] at h
      cases h
    | ok st₁ =>
      rw [htake] at h
      obtain ⟨hfirst, hstream₁⟩ := examples_of_take htake hstream
      calc st'.1.examples
          = st₁.1.examples + (es.flatMap Envelope.records).length := ih h hstream₁
        _ = st.1.examples + (e.records.length + (es.flatMap Envelope.records).length) := by
            rw [hfirst, Nat.add_assoc]
        _ = st.1.examples + ((e :: es).flatMap Envelope.records).length := by
            rw [List.flatMap_cons, List.length_append]

/-- A reference that ends well has closed the outputs that taking the envelopes left. -/
theorem exists_close_of_run {work : Nat} {sinks closed : Sinks} {es : List Envelope}
    {summary : Summary} (h : run work sinks es = (.ok summary, closed)) :
    ∃ last, takeAll work sinks es = .ok (summary, last) ∧ last.close = (.ok (), closed) := by
  obtain ⟨last, htake⟩ := exists_takeAll_of_run h
  refine ⟨last, htake, ?_⟩
  rw [run, htake, conclude] at h
  split at h
  · cases h
  · rename_i hclose
    rw [hclose, (Prod.mk.inj h).2]

/-- A reference that ends well has written and counted the records that its envelopes carry, and
they have reached the device. -/
theorem stream_of_run {work : Nat} {sinks closed : Sinks} {es : List Envelope} {summary : Summary}
    {sink : ByteSink} (h : run work sinks es = (.ok summary, closed))
    (hstart : sinks.records = some (.start sink)) (hnew : sink.received = []) :
    summary.examples = (es.flatMap Envelope.records).length ∧
      ∃ w, closed.records = some w ∧
        w.sink.content = encodeAll (es.flatMap Envelope.records) := by
  obtain ⟨last, htake, hclose⟩ := exists_close_of_run h
  have hat : sinks.at? .records = some (sink, 0) := by
    rw [Sinks.at?, hstart]
    rfl
  constructor
  · have hcount := examples_of_foldlM_take htake (by rw [hstart]; rfl)
    rw [hcount]
    exact Nat.zero_add _
  · -- All has been taken over by the stream, and closing it passes all on.
    obtain ⟨done, rest, hsplit, hwhole, hwrote⟩ := foldlM_take_wrote (.start work, sinks) es
    rw [← takeAll, htake] at hwhole hwrote
    obtain rfl := hwhole rfl
    rw [List.append_nil] at hsplit
    obtain ⟨b, hb, -, part, hpart, hreceived⟩ := hwrote .records (sink, 0) hat
    rw [show Entry.pieces .records [] = [] from rfl, List.flatten_nil, List.prefix_nil] at hpart
    rw [hpart, List.append_nil, hnew, List.nil_append, hsplit, Entry.pieces_records] at hreceived
    obtain ⟨hworks, hreached⟩ := last.close_spec
    rw [hclose] at hworks hreached
    have hclosed := (hreached .records).1 trivial
    rw [show last.at? .records = some b from hb] at hclosed
    obtain ⟨w, hw, hwb⟩ := Option.map_eq_some_iff.1 hclosed
    have hdone : b.1.close = (true, b.1.close.2) := Prod.ext (hworks.1 rfl .records b hb) rfl
    refine ⟨w, hw, ?_⟩
    calc w.sink.content
        = b.1.close.2.content := by rw [← (Prod.mk.inj hwb).1]
      _ = b.1.received := ByteSink.content_of_close hdone
      _ = encodeAll (es.flatMap Envelope.records) := by rw [hreceived]; rfl

end Sequential

namespace Pool

variable {σ : Type} {s : WorkerSetup σ} {p : Pool σ} {calls : List Collection} {n : Nat}
  {modules : List LoadedModule} {sinks : Sinks} {world : σ}

/-- A run that ends well leaves a stream of the records that the envelopes carry. -/
theorem Run.stream (h : Run s (.start n modules sinks world) calls p) (hn : 0 < n)
    {summary : Summary} (hr : p.result? = some (.ok summary)) {sink : ByteSink}
    (hstart : sinks.records = some (.start sink)) (hnew : sink.received = []) :
    summary.examples = (p.envelopes.flatMap Envelope.records).length ∧
      ∃ w, p.sinks.records = some w ∧
        w.sink.content = encodeAll (p.envelopes.flatMap Envelope.records) :=
  Sequential.stream_of_run (h.run_eq hn hr).1 hstart hnew

/-- After a good end the envelopes carry the records that the calls have left, in some order. -/
theorem Settled.records_perm {summary : Summary} (h : Settled s modules calls p summary) :
    (p.envelopes.flatMap Envelope.records).Perm (calls.flatMap (·.retained s.keyFilter)) := by
  have hperm := (h.drained.map (·.envelope)).flatMap_right Envelope.records
  rw [List.map_map] at hperm
  exact hperm.trans (.of_eq (List.flatMap_map _ _ calls))

end Pool

end TraceGen
